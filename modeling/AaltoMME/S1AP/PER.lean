import AaltoMME.Base.BitString
import AaltoMME.Platform

/-!
# The packed encoding rules

A model of `rt_per_bin.c`.  One structure serves encoders and decoders: an encoder keeps `data` and moves
`offset`, a decoder moves `data`.  C computes on octets after promotion to `int`, so the expressions
on octets are expressions on numbers, truncated where the source stores them in a `uint8_t`.  The encoders
are functions on the structure; the decoders are computations with the structure as their state, which can
end in a fault.
-/

namespace AaltoMME.PER

open Base

/-- `struct BinaryData`.  The two pointers are offsets into one memory; `length` counts bits. -/
structure BinaryData where
  mem : Mem
  data : Nat
  offset : Nat
  pos : Nat
  length : UInt32

/-- A buffer cleared with `memset`, ready for an encoder. -/
def BinaryData.empty : BinaryData := ⟨Mem.zero, 0, 0, 0, 0⟩

/-- A buffer for a decoder, with its length in bits. -/
def BinaryData.ofBuffer (m : Mem) (length : UInt32) : BinaryData := ⟨m, 0, 0, 0, length⟩

/-- `MAXDATABYTES`. -/
def maxDataBytes : Nat := 4096

/-- The number of octets that hold a number of bits. -/
def octetsFor (bits : Nat) : Nat := if bits % 8 ≠ 0 then bits / 8 + 1 else bits / 8

/-! ## Encoders -/

/-- `align_enc`. -/
def alignEnc (bytes : BinaryData) : BinaryData :=
  if bytes.pos ≠ 0 then
    { bytes with length := bytes.length + UInt32.ofNat (8 - bytes.pos), pos := 0, offset := bytes.offset + 1 }
  else bytes

/-- `p[i] |= x`. -/
def orOctet (m : Mem) (i x : Nat) : Mem := m.set i (m i ||| UInt8.ofNat x)

/-- One turn of the loop of `setbits` over bits that cross an octet: the first part of `byte` goes to
`offset[i]`, the rest to `offset[i + 1]`. -/
def orSplit (m : Mem) (i pos byte : Nat) : Mem :=
  orOctet (orOctet m i (byte >>> pos)) (i + 1) ((byte &&& (0xFF >>> (8 - pos))) <<< (8 - pos))

/-- `setbits`: the low `numbits` bits of the 32 bit value `val`. -/
def setbits (bytes : BinaryData) (numbits val : Nat) : BinaryData :=
  let numbytes := octetsFor numbits
  let mem :=
    if numbits + bytes.pos ≤ 8 then
      -- only the current octet
      let byte := val &&& (0xFF >>> ((8 - numbits) % 8))
      orOctet bytes.mem bytes.offset (byte <<< ((8 - numbits - bytes.pos) % 8))
    else if bytes.pos = 0 then
      -- aligned: the first octets of `htonl(val << (32 - numbits))`
      bytes.mem.copy (Mem.ofList (octetsOfNat 4 (val <<< (32 - numbits)))) bytes.offset numbytes
    else
      let val := (val <<< (32 - numbits)) % 2 ^ 32
      (List.range numbytes).foldl (fun m i => orSplit m (bytes.offset + i) bytes.pos
        ((val &&& (0xFF <<< (32 - 8 * (i + 1)))) >>> (32 - 8 * (i + 1)))) bytes.mem
  let pos := bytes.pos + numbits
  { bytes with
    mem
    offset := if 8 ≤ pos then bytes.offset + numbytes else bytes.offset
    pos := if 8 ≤ pos then pos % 8 else pos
    length := bytes.length + UInt32.ofNat numbits }

/-- `setoctets`. -/
def setoctets (bytes : BinaryData) (val : List UInt8) : BinaryData :=
  val.foldl (fun bytes x => setbits bytes 8 x.toNat) (alignEnc bytes)

/-- The loop of `eint`, least significant octet first; a 64 bit value has at most 8 octets. -/
def eintLoop : Nat → Nat → List UInt8
  | 0, _ => []
  | k + 1, tmp => if tmp = 0 then [] else UInt8.ofNat (tmp &&& 0xFF) :: eintLoop k (tmp >>> 8)

/-- `eint`: the octets of a number without leading zeros, one octet for zero. -/
def eint (val : Nat) : List UInt8 :=
  match eintLoop 8 val with
  | [] => [0]
  | l => l.reverse

/-- `Ub - Lb + 1`, on 64 bits. -/
def rangeOf (lb ub : Nat) : Nat := (ub + 2 ^ 64 - lb + 1) % 2 ^ 64

/-- `Val - Lb`, on 32 bits. -/
def val2 (val lb : Nat) : Nat := (val + 2 ^ 64 - lb) % 2 ^ 32

/-- The number of bits of a constrained number whose range is at most 255. -/
def fieldWidth (range : Nat) : Nat :=
  if range = 2 then 1
  else if range ≤ 4 then 2
  else if range ≤ 8 then 3
  else if range ≤ 16 then 4
  else if range ≤ 32 then 5
  else if range ≤ 64 then 6
  else if range ≤ 128 then 7
  else 8

/-- `encode_constrained_number` where the range is at most 255. -/
def encodeBitField (bytes : BinaryData) (val lb ub : Nat) : BinaryData :=
  setbits bytes (fieldWidth (rangeOf lb ub)) (val2 val lb)

/-- `encode_constrained_number` where the octets of the value are counted: a number of octets from 1 to
`ub`, which the source encodes by a call of itself, and the octets. -/
def encodeCounted (bytes : BinaryData) (val ub : Nat) : BinaryData :=
  setoctets (encodeBitField bytes (eint val).length 1 ub) (eint val)

/-- `encode_constrained_number`.  The counted octets are those of `Val`, not of `Val2`. -/
def encodeConstrainedNumber (bytes : BinaryData) (val lb ub : Nat) : BinaryData :=
  let range := rangeOf lb ub
  if range ≤ 255 then encodeBitField bytes val lb ub
  else if range ≤ 256 then setoctets bytes [UInt8.ofNat (val2 val lb)]
  else if range ≤ 65536 then
    setoctets bytes [UInt8.ofNat ((val2 val lb &&& 0xFF00) >>> 8), UInt8.ofNat (val2 val lb &&& 0xFF)]
  else if range ≤ 0x1000000 then encodeCounted bytes val 3
  else if range ≤ 0x100000000 then encodeCounted bytes val 4
  else if range ≤ 0x10000000000 then encodeCounted bytes val 5
  else bytes

/-- `encode_unconstrained_number`; nothing is written for a value that does not fit 14 bits. -/
def encodeUnconstrainedNumber (bytes : BinaryData) (val : Nat) : BinaryData :=
  if val < 128 then setoctets bytes [UInt8.ofNat (val &&& 0x7F)]
  else if val < 16384 then
    setoctets bytes [UInt8.ofNat ((val &&& 0x3F00) >>> 8) ||| 0x80, UInt8.ofNat (val &&& 0xFF)]
  else bytes

/-- `encode_open_type`. -/
def encodeOpenType (bytes opentypedata : BinaryData) : BinaryData :=
  let numBytes := octetsFor opentypedata.length.toNat
  setoctets (encodeUnconstrainedNumber bytes numBytes)
    (opentypedata.mem.read opentypedata.data numBytes)

/-- `encode_octet_string`; strings of more than 65535 octets are not written. -/
def encodeOctetString (bytes : BinaryData) (str : List UInt8) : BinaryData :=
  match str with
  | [] => bytes
  | [x] => setbits bytes 8 x.toNat
  | [x, y] => setbits bytes 16 ((x.toNat <<< 8) ||| y.toNat)
  | _ => if str.length ≤ 65535 then setoctets bytes str else bytes

/-- `set_choice_ext`.  The alternatives of an extension are not encoded. -/
def setChoiceExt (bytes : BinaryData) (choice maxChoices ext : Nat) : BinaryData :=
  let bytes := setbits bytes 1 ext
  if ext = 1 then bytes
  else if 1 < maxChoices then encodeConstrainedNumber bytes choice 0 (maxChoices - 1)
  else bytes

/-! ## Decoders -/

/-- A decoder reads from the structure and moves its pointer. -/
abbrev Decoder (α : Type) : Type := StateT BinaryData Outcome α

/-- `align_dec`. -/
def alignDec : Decoder Unit := fun bytes =>
  if bytes.pos ≠ 0 then
    .ok ((), { bytes with data := bytes.data + 1, pos := 0, length := bytes.length - 8 })
  else .ok ((), bytes)

/-- `getbit`. -/
def getbit : Decoder Nat := fun bytes =>
  let pos := if 8 ≤ bytes.pos then 0 else bytes.pos
  let byte := (bytes.mem bytes.data).toNat
  .ok ((byte >>> (7 - pos)) &&& 0x1,
    { bytes with data := if pos + 1 = 8 then bytes.data + 1 else bytes.data, pos := (pos + 1) % 8 })

/-- An octet of `getbits` that is taken from two octets: `tmp[i] <<= pos` and then the first bits of
`tmp[i + 1]`. -/
def joinOctets (pos : Nat) (x y : UInt8) : UInt8 :=
  UInt8.ofNat (x.toNat <<< pos) ||| UInt8.ofNat ((y.toNat &&& (0xFF <<< (8 - pos))) >>> (8 - pos))

/-- `getbits`: the octets it stores in `bits->data`.  The last one can hold further bits of the source after
the `num` bits asked for. -/
def getbits (num : Nat) : Decoder (List UInt8) := fun bytes =>
  if num % 8 = 0 ∧ bytes.pos = 0 then
    .ok (bytes.mem.read bytes.data (num / 8),
      { bytes with length := bytes.length - UInt32.ofNat num, data := bytes.data + num / 8 })
  else
    let newused := (num + bytes.pos) % 8
    let numbytes := octetsFor (num + bytes.pos)
    let tmp := bytes.mem.shift bytes.data
    let bits :=
      if bytes.pos + num ≤ 8 then [UInt8.ofNat ((tmp 0).toNat <<< bytes.pos)]
      else (List.range (octetsFor num)).map fun i =>
        if (i + 1) * 8 ≤ num ∨ num < 8 then joinOctets bytes.pos (tmp i) (tmp (i + 1))
        else UInt8.ofNat ((tmp i).toNat <<< bytes.pos) &&& UInt8.ofNat (0xFF <<< (8 - newused))
    -- `length` is not updated here
    .ok (bits, { bytes with
      data := if newused = 0 then bytes.data + (numbytes - 1) + 1 else bytes.data + (numbytes - 1)
      pos := newused })

/-- `getoctets`: nothing is stored when there are not enough octets. -/
def getoctets (num : Nat) : Decoder (Option (List UInt8)) := do
  alignDec
  let bytes ← get
  if bytes.length.toNat / 8 < num then return none
  set { bytes with data := bytes.data + num, length := bytes.length - UInt32.ofNat (num * 8) }
  return some (bytes.mem.read bytes.data num)

/-- `getoctets` for a caller that goes on to use what was stored. -/
def takeOctets (num : Nat) : Decoder (List UInt8) := do
  match ← getoctets num with
  | some l => return l
  | none => throw .uninitialised

/-- The octets of a number in the order of the host, which is little endian. -/
def correctEndianness : List UInt8 → List UInt8
  | [a, b] => [b, a]
  | [a, b, c] => [c, b, a]
  | [a, b, c, d] => [d, c, b, a]
  | l => l

/-- The value of octets in the order of the host. -/
def hostNat (l : List UInt8) : Nat := l.foldr (fun x n => x.toNat + 256 * n) 0

/-- The aligned branches of `decode_constrained_number` after the octets are stored: they are copied
into a `uint32_t`. -/
def numberOfOctets (l : List UInt8) : Decoder Nat :=
  if 4 < l.length then throw .overflow else return hostNat (correctEndianness l)

/-- The branches of `decode_constrained_number` where the range is at most 255. -/
def decodeBitField (lb ub : Nat) : Decoder Nat := do
  let width := fieldWidth (rangeOf lb ub)
  let bits ← getbits width
  return (((bits.headD 0).toNat >>> (8 - width)) + lb) % 2 ^ 32

/-- The branches of `decode_constrained_number` where the octets of the value are counted. -/
def decodeCounted (ub : Nat) : Decoder Nat := do
  let len ← decodeBitField 1 ub
  numberOfOctets (← takeOctets len)

/-- `decode_constrained_number`.  A larger range leaves the value uninitialised. -/
def decodeConstrainedNumber (lb ub : Nat) : Decoder Nat :=
  let range := rangeOf lb ub
  if range ≤ 255 then decodeBitField lb ub
  else do
    let val ←
      if range ≤ 256 then takeOctets 1 >>= numberOfOctets
      else if range ≤ 65536 then takeOctets 2 >>= numberOfOctets
      else if range ≤ 0x1000000 then decodeCounted 3
      else if range ≤ 0x100000000 then decodeCounted 4
      else if range ≤ 0x10000000000 then decodeCounted 5
      else throw .uninitialised
    return (val + lb) % 2 ^ 32

/-- `decode_enumerated`. -/
def decodeEnumerated (lb ub : Nat) : Decoder Nat := decodeConstrainedNumber lb ub

/-- `decode_length_undef`.  A length above 16K leaves the value uninitialised. -/
def decodeLengthUndef : Decoder Nat := do
  alignDec
  let bytes ← get
  let x := (bytes.mem bytes.data).toNat
  let y := (bytes.mem (bytes.data + 1)).toNat
  if x &&& 0x80 = 0 then
    set { bytes with data := bytes.data + 1, length := bytes.length - 8 }
    return x &&& 0x7F
  else if x &&& 0xC0 = 0x80 then
    set { bytes with data := bytes.data + 2, length := bytes.length - 16 }
    return (x * 256 + y) &&& 0x3FFF
  else throw .uninitialised

/-- `decode_open_type` into a buffer of `capacity` octets. -/
def decodeOpenType (capacity : Nat) : Decoder (List UInt8) := do
  let len ← decodeLengthUndef
  let octets ← takeOctets len
  if capacity < len then throw .overflow
  return octets

/-- `decode_octet_string`.  The result is zeros where nothing could be read. -/
def decodeOctetString (size : Nat) : Decoder (List UInt8) :=
  if size = 0 then return []
  else if size = 1 then getbits 8
  else if size = 2 then getbits 16
  else if size ≤ 65535 then do return (← getoctets size).getD (List.replicate size 0)
  else return List.replicate size 0

/-- `getchoice`.  `decode_small_number` stores through a pointer that it does not set. -/
def getchoice (numChoices ext : Nat) : Decoder Nat :=
  if numChoices = 1 ∧ ext = 0 then return 0
  else if ext = 1 then do
    let _ ← getbit
    throw .uninitialised
  else decodeConstrainedNumber 0 (numChoices - 1)

end AaltoMME.PER
