import AaltoMME.S1AP.Decoders

/-!
# Lists of fields

The encoders and decoders compose: fields that are encoded one after the other are decoded one after the
other, whatever the position at which each of them starts.  The proof is an induction over the fields that
only uses that each encoder appends the bits of a format and that its decoder reads them.
-/

namespace AaltoMME.PER

open Base

/-- A field within the limits of the encoders. -/
inductive Field
  /-- A value of `n` bits. -/
  | bits (n v : Nat) (hn : 0 < n) (hle : n ≤ 8) (hv : v < 2 ^ n)
  /-- A constrained number; a range of more than two octets starts at zero. -/
  | number (v lb ub : Nat) (hlb : lb ≤ v) (hub : v ≤ ub) (hlt : ub < 2 ^ 32)
    (hrange : ub - lb + 1 ≤ 65536 ∨ lb = 0)
  | octetString (l : List UInt8) (h : l.length ≤ 65535)
  | alignment
  /-- The octets of a buffer, whose length is counted in bits. -/
  | openType (content : BinaryData) (h : content.octets.length < 16384)

/-- What a decoder has to know of a field. -/
inductive FieldType
  | bits (n : Nat)
  | number (lb ub : Nat)
  | octetString (size : Nat)
  | alignment
  /-- An open type is stored in a buffer of `capacity` octets. -/
  | openType (capacity : Nat)

/-- What a decoder returns for a field. -/
inductive FieldValue
  | number (v : Nat)
  | octets (l : List UInt8)
  | none
  deriving DecidableEq

namespace Field

def encode (b : BinaryData) : Field → BinaryData
  | bits n v .. => setbits b n v
  | number v lb ub .. => encodeConstrainedNumber b v lb ub
  | octetString l _ => encodeOctetString b l
  | alignment => alignEnc b
  | openType content _ => encodeOpenType b content

def type : Field → FieldType
  | bits n .. => .bits n
  | number _ lb ub .. => .number lb ub
  | octetString l _ => .octetString l.length
  | alignment => .alignment
  | openType .. => .openType 16384

def value : Field → FieldValue
  | bits _ v .. | number v .. => .number v
  | octetString l _ => .octets l
  | alignment => .none
  | openType content _ => .octets content.octets

def format : Field → BitFormat
  | bits n v .. => .raw (natBits n v)
  | number v lb ub .. => numberFormat v lb ub
  | octetString l _ => octetStringFormat l
  | alignment => .align
  | openType content _ => openTypeFormat content.octets

end Field

/-- The decoder of a field.  The value of bits is on the left of the octet that `getbits` stores. -/
def FieldType.decode : FieldType → Decoder FieldValue
  | bits n => do
    let v ← getbits n >>= fun bits => pure ((bits.headD 0).toNat >>> (8 - n))
    return .number v
  | number lb ub => do return .number (← decodeConstrainedNumber lb ub)
  | octetString size => do return .octets (← decodeOctetString size)
  | alignment => do
    alignDec
    return .none
  | openType capacity => do return .octets (← decodeOpenType capacity)

def encodeFields (fs : List Field) (b : BinaryData) : BinaryData := fs.foldl Field.encode b

def decodeFields : List FieldType → Decoder (List FieldValue)
  | [] => pure []
  | t :: ts => do
    let v ← t.decode
    let vs ← decodeFields ts
    return v :: vs

theorem Field.encodes_encode (f : Field) : Encodes f.encode f.format := by
  cases f with
  | bits n v hn hle hv => exact encodes_setbits v hn (by omega) (.inl hle)
  | number v lb ub => exact encodes_encodeConstrainedNumber v lb ub
  | octetString l h => exact encodes_encodeOctetString h
  | alignment => exact encodes_alignEnc
  | openType content h => exact encodes_encodeOpenType h

theorem Field.decodes_decode (f : Field) : Decodes f.type.decode f.value f.format := by
  cases f with
  | bits n v hn hle hv => exact (decodes_getbits hn hle hv).map FieldValue.number
  | number v lb ub hlb hub hlt hrange =>
    exact (decodes_decodeConstrainedNumber hlb hub hlt hrange).map FieldValue.number
  | octetString l h => exact (decodes_decodeOctetString h).map FieldValue.octets
  | alignment => exact decodes_alignDec.map fun _ => FieldValue.none
  | openType content h => exact (decodes_decodeOpenType h (le_of_lt h)).map FieldValue.octets

def fieldsFormat (fs : List Field) : BitFormat := .concat (fs.map Field.format)

theorem encodes_encodeFields (fs : List Field) : Encodes (encodeFields fs) (fieldsFormat fs) :=
  Encodes.foldl fun f _ => f.encodes_encode

theorem decodes_decodeFields (fs : List Field) :
    Decodes (decodeFields (fs.map Field.type)) (fs.map Field.value) (fieldsFormat fs) := by
  induction fs with
  | nil => exact Decodes.pure []
  | cons f fs ih => exact f.decodes_decode.bind (ih.map (f.value :: ·))

/-- Fields come back as they were written, also when others follow them, and the decoder then stands
where the encoder stood after writing them. -/
theorem fields_round_trip (fs gs : List Field) (length : UInt32)
    (hlength : (encodeFields (fs ++ gs) .empty).encPos ≤ length.toNat) :
    ∃ d, decodeFields (fs.map Field.type) (.ofBuffer (encodeFields (fs ++ gs) .empty).mem length) =
        .ok (fs.map Field.value, d) ∧
      d.decPos = (encodeFields fs .empty).encPos ∧ d.decPos = (encodeFields fs .empty).length.toNat := by
  have hall := encodes_encodeFields (fs ++ gs)
  have hsplit : fieldsFormat (fs ++ gs) = (fieldsFormat fs).seq (fieldsFormat gs) := by
    simp only [fieldsFormat, List.map_append, BitFormat.concat_append]
  rw [hall.encPos_empty, hsplit, BitFormat.stop_seq] at hlength
  have hle := ((fieldsFormat gs).le_stop _).trans hlength
  have hat := (BitFormat.at_seq.mp (hsplit ▸ hall.at_empty)).1
  obtain ⟨d, hdec, hpos⟩ := (decodes_decodeFields fs).run_ofBuffer length hat hle
  have hfs := encodes_encodeFields fs
  refine ⟨d, hdec, hpos.trans hfs.encPos_empty.symm, ?_⟩
  rw [hpos, hfs.length_empty, UInt32.toNat_ofNat', Nat.mod_eq_of_lt (lt_of_le_of_lt hle length.toNat_lt)]

/-- One field of each kind and more, most of them not aligned. -/
def Field.sample : List Field :=
  [.bits 3 5 (by decide) (by decide) (by decide),
    .number 1000 0 65535 (by decide) (by decide) (by decide) (by decide),
    .bits 7 77 (by decide) (by decide) (by decide),
    .octetString [0xA5, 0x5A] (by decide),
    .number 70000 0 0xFFFFFFFF (by decide) (by decide) (by decide) (by decide),
    .alignment,
    .openType (encodeFields [.bits 4 9 (by decide) (by decide) (by decide)] .empty) (by decide),
    .octetString [1, 2, 3] (by decide)]

theorem fields_round_trip_sample : ∃ d, decodeFields (Field.sample.map Field.type)
      (.ofBuffer (encodeFields (Field.sample ++ [.bits 1 1 (by decide) (by decide) (by decide)]) .empty).mem 160) =
        .ok ([.number 5, .number 1000, .number 77, .octets [0xA5, 0x5A], .number 70000, .none, .octets [0x90],
          .octets [1, 2, 3]], d) ∧ d.decPos = 120 := by
  have hvalues : Field.sample.map Field.value = [.number 5, .number 1000, .number 77, .octets [0xA5, 0x5A],
      .number 70000, .none, .octets [0x90], .octets [1, 2, 3]] := by decide +kernel
  have hstop : (encodeFields Field.sample .empty).encPos = 120 := by decide +kernel
  obtain ⟨d, hdec, hpos, _⟩ := fields_round_trip Field.sample [.bits 1 1 (by decide) (by decide) (by decide)] 160
    (by decide +kernel)
  exact ⟨d, hvalues ▸ hdec, hpos.trans hstop⟩

end AaltoMME.PER
