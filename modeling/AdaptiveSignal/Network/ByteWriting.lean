import AdaptiveSignal.Foundation.ByteOrder
import AdaptiveSignal.Network.ByteProcessing

/-! # Fields written into a buffer

A packet is written field by field through the same index that it is read with. The host
keeps the least byte of a number first, so that `htons` and `htonl` swap its bytes.
-/

namespace AdaptiveSignal.Network

open Foundation

/-! ## Writing -/

def htons (x : UInt16) : UInt16 := .ofNat (swapBytes 2 x.toNat)

def htonl (x : UInt32) : UInt32 := .ofNat (swapBytes 4 x.toNat)

/-- Of the bits of a number. -/
def htonf (f : UInt32) : UInt32 := htonl f

/-- `output`, the bytes of the swapped number as they lie in memory. -/
def uint16ToByte (input : UInt16) : List UInt8 := littleEndian 2 (htons input).toNat

def uint32ToByte (input : UInt32) : List UInt8 := littleEndian 4 (htonl input).toNat

def floatToByte (input : UInt32) : List UInt8 := littleEndian 4 (htonf input).toNat

theorem uint16ToByte_eq (input : UInt16) : uint16ToByte input = bigEndian 2 input.toNat := by
  rw [uint16ToByte, htons, UInt16.toNat_ofNat_of_lt' (swapBytes_lt 2 _), littleEndian_swapBytes]

theorem uint32ToByte_eq (input : UInt32) : uint32ToByte input = bigEndian 4 input.toNat := by
  rw [uint32ToByte, htonl, UInt32.toNat_ofNat_of_lt' (swapBytes_lt 4 _), littleEndian_swapBytes]

namespace MsgBuf

/-- `memcpy` or `memset` at the index. -/
def put (buf : MsgBuf) (bytes : List UInt8) : MsgBuf :=
  { buf with content := putBytes buf.content buf.index.toNat bytes }

@[simp] theorem put_index (buf : MsgBuf) (bytes : List UInt8) :
    (buf.put bytes).index = buf.index := rfl

end MsgBuf

/-- `src` are the `src_len` bytes that are copied. -/
def writeChar (src : List UInt8) (maxLen : ℕ) (buf : MsgBuf) : MsgBuf :=
  ((buf.put (List.replicate maxLen ' '.toUInt8)).put src).skip maxLen

def writeUInt8 (src : UInt8) (buf : MsgBuf) : MsgBuf := (buf.put [src]).skip 1

def writeUInt16 (src : UInt16) (buf : MsgBuf) : MsgBuf := (buf.put (uint16ToByte src)).skip 2

def writeUInt32 (src : UInt32) (buf : MsgBuf) : MsgBuf := (buf.put (uint32ToByte src)).skip 4

def writeFloat (src : UInt32) (buf : MsgBuf) : MsgBuf := (buf.put (floatToByte src)).skip 4

/-! ## Fields -/

/-- A field with its value; characters fit their width. -/
inductive Field
  | uint8 (value : UInt8)
  | uint16 (value : UInt16)
  | uint32 (value : UInt32)
  | float (bits : UInt32)
  | char (src : List UInt8) (width : ℕ) (fits : src.length ≤ width)

/-- What a field is read as. -/
inductive FieldValue
  | number (value : ℕ)
  | chars (value : List UInt8)
  deriving DecidableEq

namespace Field

def write : Field → MsgBuf → MsgBuf
  | uint8 value => writeUInt8 value
  | uint16 value => writeUInt16 value
  | uint32 value => writeUInt32 value
  | float bits => writeFloat bits
  | char src width _ => writeChar src width

/-- The read function of the type of the field. -/
def read : Field → StateM MsgBuf FieldValue
  | uint8 _ => FieldValue.number <$> readUInt8
  | uint16 _ => FieldValue.number <$> readUInt16
  | uint32 _ => FieldValue.number <$> readUInt32
  | float _ => FieldValue.number <$> readFloat
  | char _ width _ => FieldValue.chars <$> readChar width

def width : Field → ℕ
  | uint8 _ => 1
  | uint16 _ => 2
  | uint32 _ | float _ => 4
  | char _ width _ => width

/-- A number is big-endian, and characters are followed by blanks. -/
def bytes : Field → List UInt8
  | uint8 value => bigEndian 1 value.toNat
  | uint16 value => bigEndian 2 value.toNat
  | uint32 value | float value => bigEndian 4 value.toNat
  | char src width _ => src ++ List.replicate (width - src.length) ' '.toUInt8

/-- A number as it was, and characters with the blanks behind them. -/
def value : Field → FieldValue
  | uint8 value => .number value.toNat
  | uint16 value => .number value.toNat
  | uint32 value | float value => .number value.toNat
  | char src width _ => .chars (src ++ List.replicate (width - src.length) ' '.toUInt8)

@[simp] theorem length_bytes (field : Field) : field.bytes.length = field.width := by
  cases field with
  | char src width fits =>
      rw [bytes, Field.width, List.length_append, List.length_replicate]
      omega
  | _ => exact length_bigEndian _ _

/-- A field is written as one block. -/
theorem write_eq (field : Field) (buf : MsgBuf) :
    field.write buf = (buf.put field.bytes).skip field.width := by
  cases field with
  | uint8 value =>
      have hbyte : bigEndian 1 value.toNat = [value] := by
        simp [bigEndian, littleEndian]
      rw [bytes, hbyte]
      rfl
  | uint16 value => rw [bytes, ← uint16ToByte_eq]; rfl
  | uint32 value => rw [bytes, ← uint32ToByte_eq]; rfl
  | float bits => rw [bytes, ← uint32ToByte_eq]; rfl
  | char src width fits =>
      have hover := @putBytes_over buf.content buf.index.toNat
        (List.replicate width ' '.toUInt8) src (by rwa [List.length_replicate])
      rw [List.drop_replicate] at hover
      exact congrArg (fun content => MsgBuf.skip { buf with content } width) hover

/-- Where the bytes of a field lie, it is read with its value. -/
theorem read_eq (field : Field) (content : ℕ → UInt8) (n : ℕ) (reads : List Place)
    (hbytes : bytesAt content (indexAt n) field.width = field.bytes) :
    field.read ⟨content, .ofNat n, reads⟩ =
      (field.value, ⟨content, .ofNat (n + field.width), reads ++ [⟨indexAt n, field.width⟩]⟩) := by
  have hnumber {read : StateM MsgBuf ℕ} {width value : ℕ} (hfits : value < 256 ^ width)
      (hread : Reads content read width (fun n => ofBigEndian (bytesAt content (indexAt n) width))
        fun n => [⟨indexAt n, width⟩])
      (hvalue : bytesAt content (indexAt n) width = bigEndian width value) :
      (FieldValue.number <$> read) ⟨content, .ofNat n, reads⟩ =
        (.number value, ⟨content, .ofNat (n + width), reads ++ [⟨indexAt n, width⟩]⟩) := by
    change (FieldValue.number (read _).1, (read _).2) = _
    rw [hread n reads]
    dsimp only
    rw [hvalue, ofBigEndian_bigEndian hfits]
  cases field with
  | uint8 value => exact hnumber value.toNat_lt (reads_readUInt8 content) hbytes
  | uint16 value => exact hnumber value.toNat_lt (reads_readUInt16 content) hbytes
  | uint32 value => exact hnumber value.toNat_lt (reads_readUInt32 content) hbytes
  | float bits => exact hnumber bits.toNat_lt (reads_readFloat content) hbytes
  | char src width fits =>
      change (FieldValue.chars (readChar width _).1, (readChar width _).2) = _
      rw [reads_readChar content width n reads]
      exact congrArg (fun bytes => (FieldValue.chars bytes, _)) hbytes

end Field

/-! ## Packets -/

/-- The fields are written one after the other. -/
def writeFields (fields : List Field) (buf : MsgBuf) : MsgBuf :=
  fields.foldl (fun buf field => field.write buf) buf

def readFields : List Field → StateM MsgBuf (List FieldValue)
  | [] => pure []
  | field :: fields => do
      let value ← field.read
      let values ← readFields fields
      return value :: values

/-- How many bytes fields have. -/
def totalWidth (fields : List Field) : ℕ := (fields.map Field.width).sum

variable {fields : List Field}

theorem length_flatMap_bytes (fields : List Field) :
    (fields.flatMap Field.bytes).length = totalWidth fields := by
  rw [List.length_flatMap, totalWidth]
  exact congrArg List.sum (List.map_congr_left fun field _ => field.length_bytes)

/-- Fields are written as one block. -/
theorem writeFields_eq (fields : List Field) (buf : MsgBuf)
    (hfits : buf.index.toNat + totalWidth fields < 2 ^ 32) :
    writeFields fields buf =
      (buf.put (fields.flatMap Field.bytes)).skip (totalWidth fields) := by
  induction fields generalizing buf with
  | nil =>
      obtain ⟨content, index, reads⟩ := buf
      simp [writeFields, MsgBuf.put, MsgBuf.skip, totalWidth]
  | cons field fields ih =>
      have htotal : totalWidth (field :: fields) = field.width + totalWidth fields := rfl
      rw [htotal] at hfits ⊢
      have hindex : (buf.index + .ofNat field.width).toNat = buf.index.toNat + field.width := by
        rw [UInt32.toNat_add, UInt32.toNat_ofNat_of_lt' (by rw [UInt32.size]; omega)]
        exact Nat.mod_eq_of_lt (by omega)
      have hrest := ih (field.write buf) (by
        rw [field.write_eq]
        change (buf.index + .ofNat field.width).toNat + _ < _
        omega)
      have hblock := @putBytes_append buf.content buf.index.toNat field.bytes
        (fields.flatMap Field.bytes)
      rw [field.length_bytes] at hblock
      change writeFields fields (field.write buf) = _
      rw [hrest, field.write_eq]
      simp only [MsgBuf.put, MsgBuf.skip, hindex, hblock, List.flatMap_cons, UInt32.ofNat_add,
        UInt32.add_assoc]

/-- Where the block of the fields lies, they are read with their values. -/
theorem readFields_eq (fields : List Field) (content : ℕ → UInt8) (n : ℕ) (reads : List Place)
    (hfits : n + totalWidth fields < 2 ^ 32)
    (hblock : bytesAt content n (totalWidth fields) = fields.flatMap Field.bytes) :
    ∃ reads', readFields fields ⟨content, .ofNat n, reads⟩ =
      (fields.map Field.value, ⟨content, .ofNat (n + totalWidth fields), reads'⟩) := by
  induction fields generalizing n reads with
  | nil => exact ⟨reads, rfl⟩
  | cons field fields ih =>
      have htotal : totalWidth (field :: fields) = field.width + totalWidth fields := rfl
      rw [htotal] at hfits hblock ⊢
      rw [bytesAt_add, List.flatMap_cons] at hblock
      obtain ⟨hfield, hrest⟩ := List.append_inj hblock (by
        rw [length_bytesAt, field.length_bytes])
      rw [← indexAt_of_lt (show n < 2 ^ 32 by omega)] at hfield
      obtain ⟨reads', hreads⟩ := ih (n + field.width)
        (reads ++ [⟨indexAt n, field.width⟩]) (by omega) hrest
      refine ⟨reads', ?_⟩
      rw [Nat.add_assoc] at hreads
      change (((field.read _).1 :: (readFields fields (field.read _).2).1),
        (readFields fields (field.read _).2).2) = _
      rw [field.read_eq content n reads hfield, hreads]
      rfl

/-- A buffer that was written, at the index where writing began. -/
def MsgBuf.rewound (written start : MsgBuf) : MsgBuf := { written with index := start.index }

theorem totalWidth_append (first rest : List Field) :
    totalWidth (first ++ rest) = totalWidth first + totalWidth rest := by
  simp [totalWidth]

/-- The index after the first of some fields. -/
theorem writeFields_index {buf : MsgBuf} (first rest : List Field)
    (hfits : buf.index.toNat + totalWidth (first ++ rest) < 2 ^ 32) :
    (writeFields first buf).index = .ofNat (buf.index.toNat + totalWidth first) := by
  rw [totalWidth_append] at hfits
  rw [writeFields_eq first buf (by omega), UInt32.ofNat_add, UInt32.ofNat_toNat]
  rfl

/-- Fields are read back as they were written: each number bit for bit and characters with
blanks behind them; the index is the same after each of them, nothing else is changed, and
each field lies where it was written, numbers with the most significant byte first. -/
theorem writeFields_roundTrip (fields : List Field) (buf : MsgBuf)
    (hfits : buf.index.toNat + totalWidth fields < 2 ^ 32) :
    (readFields fields ((writeFields fields buf).rewound buf)).1 = fields.map Field.value ∧
      (∀ first rest, fields = first ++ rest →
        (readFields first ((writeFields fields buf).rewound buf)).2.index =
          (writeFields first buf).index) ∧
      (∀ i, i < buf.index.toNat ∨ buf.index.toNat + totalWidth fields ≤ i →
        (writeFields fields buf).content i = buf.content i) ∧
      ∀ first field rest, fields = first ++ field :: rest →
        bytesAt (writeFields fields buf).content (writeFields first buf).index.toNat field.width =
          field.bytes := by
  have hcontent : (writeFields fields buf).content =
      putBytes buf.content buf.index.toNat (fields.flatMap Field.bytes) := by
    rw [writeFields_eq fields buf hfits]
    rfl
  -- a part of the fields lies where the parts before it end
  have hpart (first part rest : List Field) (hfields : fields = first ++ part ++ rest) :
      bytesAt (writeFields fields buf).content (buf.index.toNat + totalWidth first)
        (totalWidth part) = part.flatMap Field.bytes := by
    have hbytes := @bytesAt_putBytes buf.content buf.index.toNat (first.flatMap Field.bytes)
      (part.flatMap Field.bytes) (rest.flatMap Field.bytes)
    rw [← List.flatMap_append, ← List.flatMap_append, ← hfields, length_flatMap_bytes,
      length_flatMap_bytes, ← hcontent] at hbytes
    exact hbytes
  have hreads (first rest : List Field) (hfields : fields = first ++ rest) :
      ∃ reads', readFields first ((writeFields fields buf).rewound buf) =
        (first.map Field.value, ⟨(writeFields fields buf).content,
          .ofNat (buf.index.toNat + totalWidth first), reads'⟩) := by
    have hlt : buf.index.toNat + totalWidth first < 2 ^ 32 := by
      rw [hfields, totalWidth_append] at hfits
      omega
    have hblock := hpart [] first rest hfields
    obtain ⟨reads', hread⟩ := readFields_eq first (writeFields fields buf).content
      buf.index.toNat (writeFields fields buf).reads hlt hblock
    rw [UInt32.ofNat_toNat] at hread
    exact ⟨reads', hread⟩
  refine ⟨?_, fun first rest hfields => ?_, fun i hi => ?_, fun first field rest hfields => ?_⟩
  · obtain ⟨reads', hread⟩ := hreads fields [] (List.append_nil _).symm
    rw [hread]
  · obtain ⟨reads', hread⟩ := hreads first rest hfields
    rw [hread, writeFields_index first rest (hfields ▸ hfits)]
  · rw [hcontent]
    rcases hi with hi | hi
    · exact putBytes_of_lt _ hi
    · exact putBytes_of_ge (by rwa [length_flatMap_bytes])
  · have hlt : buf.index.toNat + totalWidth first < 2 ^ 32 := by
      rw [hfields, totalWidth_append] at hfits
      omega
    have hfield := hpart first [field] rest (by rw [hfields]; simp)
    rw [writeFields_index first (field :: rest) (hfields ▸ hfits),
      UInt32.toNat_ofNat_of_lt' hlt]
    simpa [totalWidth] using hfield

/-- A name of three characters in a field of four, and a number. -/
theorem writeFields_roundTrip_name :
    (readFields [.char [65, 66, 67] 4 (by decide), .uint16 513]
      ((writeFields [.char [65, 66, 67] 4 (by decide), .uint16 513] ⟨fun _ => 7, 2, []⟩).rewound
        ⟨fun _ => 7, 2, []⟩)).1 = [.chars [65, 66, 67, 32], .number 513] :=
  (writeFields_roundTrip [.char [65, 66, 67] 4 (by decide), .uint16 513] ⟨fun _ => 7, 2, []⟩
    (by decide)).1

end AdaptiveSignal.Network
