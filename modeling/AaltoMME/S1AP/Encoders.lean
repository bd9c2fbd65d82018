import AaltoMME.Base.BitFormat
import AaltoMME.S1AP.PER

/-!
# What the encoders write

An encoder leaves the bits before its position alone, appends the bits of a format and keeps the rest of
the buffer zero, which `setbits` relies on because it only ever sets bits.
-/

namespace AaltoMME.PER

open Base

/-! ## Appending -/

namespace BinaryData

/-- The position of an encoder, in bits. -/
def encPos (b : BinaryData) : Nat := 8 * b.offset + b.pos

/-- The rest of the buffer is still zero. -/
structure Clean (b : BinaryData) : Prop where
  pos_lt : b.pos < 8
  zero : ∀ i, b.encPos ≤ i → b.mem.bit i = false

/-- `b'` is `b` with the bits `l` appended. -/
structure Appends (b b' : BinaryData) (l : List Bool) : Prop extends Clean b' where
  encPos_eq : b'.encPos = b.encPos + l.length
  before : ∀ i, i < b.encPos → b'.mem.bit i = b.mem.bit i
  bits : b'.mem.bits b.encPos l.length = l
  length : b'.length = b.length + UInt32.ofNat l.length
  data : b'.data = b.data

theorem Clean.appends_nil {b : BinaryData} (h : b.Clean) : b.Appends b [] where
  toClean := h
  encPos_eq := rfl
  before _ _ := rfl
  bits := rfl
  length := (UInt32.add_zero _).symm
  data := rfl

theorem Appends.trans {b b' b'' : BinaryData} {l l' : List Bool} (h : b.Appends b' l)
    (h' : b'.Appends b'' l') : b.Appends b'' (l ++ l') where
  toClean := h'.toClean
  encPos_eq := by rw [h'.encPos_eq, h.encPos_eq, List.length_append, Nat.add_assoc]
  before i hi := by
    have hlt : i < b'.encPos := by rw [h.encPos_eq]; omega
    rw [h'.before i hlt, h.before i hi]
  bits := by
    have hfirst : b''.mem.bits b.encPos l.length = b'.mem.bits b.encPos l.length :=
      Mem.bits_congr fun k hk => h'.before _ (by rw [h.encPos_eq]; omega)
    rw [List.length_append, Mem.bits_add, hfirst, h.bits, ← h.encPos_eq, h'.bits]
  length := by rw [h'.length, h.length, List.length_append, UInt32.ofNat_add, UInt32.add_assoc]
  data := h'.data.trans h.data

theorem clean_empty : empty.Clean where
  pos_lt := by decide
  zero i _ := by simp [empty, Mem.bit]

end BinaryData

/-- An encoder appends the bits of a format. -/
def Encodes (enc : BinaryData → BinaryData) (f : BitFormat) : Prop :=
  ∀ b : BinaryData, b.Clean → b.Appends (enc b) (f b.encPos)

namespace Encodes

variable {enc enc' : BinaryData → BinaryData} {f g : BitFormat}

theorem nil : Encodes id BitFormat.nil := fun _ hb => hb.appends_nil

theorem seq (h : Encodes enc f) (h' : Encodes enc' g) : Encodes (fun b => enc' (enc b)) (f.seq g) :=
  fun b hb => by
    have hf := h b hb
    have hg := h' _ hf.toClean
    rw [hf.encPos_eq] at hg
    exact hf.trans hg

theorem foldl {α : Type} {l : List α} {e : BinaryData → α → BinaryData} {f : α → BitFormat}
    (h : ∀ x ∈ l, Encodes (e · x) (f x)) : Encodes (fun b => l.foldl e b) (BitFormat.concat (l.map f)) := by
  induction l with
  | nil => exact nil
  | cons x l ih => exact (h x List.mem_cons_self).seq (ih fun y hy => h y (List.mem_cons_of_mem x hy))

theorem at_empty (h : Encodes enc f) : f.At (enc .empty).mem 0 := (h _ BinaryData.clean_empty).bits

theorem encPos_empty (h : Encodes enc f) : (enc .empty).encPos = f.stop 0 :=
  (h _ BinaryData.clean_empty).encPos_eq

theorem length_empty (h : Encodes enc f) : (enc .empty).length = UInt32.ofNat (f.stop 0) := by
  rw [(h _ BinaryData.clean_empty).length, BitFormat.stop, Nat.zero_add]
  exact UInt32.zero_add _

end Encodes

/-! ## Bits of octets -/

theorem testBit_ofNat (x k : Nat) : (UInt8.ofNat x).toNat.testBit k = (decide (k < 8) && x.testBit k) := by
  rw [UInt8.toNat_ofNat', Nat.testBit_mod_two_pow]

theorem testBit_mask (k : Nat) : Nat.testBit 0xFF k = decide (k < 8) := Nat.testBit_two_pow_sub_one 8 k

theorem bit_set (m : Mem) (i : Nat) (x : UInt8) (j : Nat) :
    (m.set i x).bit j = if j / 8 = i then x.toNat.testBit (7 - j % 8) else m.bit j := by
  unfold Mem.bit Mem.set
  split <;> rfl

theorem bit_orOctet (m : Mem) (i x j : Nat) :
    (orOctet m i x).bit j = (m.bit j || (decide (j / 8 = i) && x.testBit (7 - j % 8))) := by
  rw [orOctet, bit_set]
  by_cases h : j / 8 = i
  · have hlt : 7 - j % 8 < 8 := by omega
    rw [UInt8.toNat_or, Nat.testBit_or, testBit_ofNat, Mem.bit, h]
    simp [hlt]
  · simp [h]

theorem bit_orSplit {m : Mem} {i pos byte : Nat} (hpos : 0 < pos) (hlt : pos < 8) (hbyte : byte < 256)
    (j : Nat) : (orSplit m i pos byte).bit j = (m.bit j ||
      (decide (8 * i + pos ≤ j ∧ j < 8 * i + pos + 8) && byte.testBit (7 - (j - (8 * i + pos))))) := by
  rw [orSplit, bit_orOctet, bit_orOctet, Bool.or_assoc]
  congr 1
  rw [Nat.testBit_shiftRight, Nat.testBit_shiftLeft, Nat.testBit_and, Nat.testBit_shiftRight, testBit_mask]
  rcases Nat.lt_trichotomy (j / 8) i with h | h | h
  · have hfirst : ¬ j / 8 = i := by omega
    have hsecond : ¬ j / 8 = i + 1 := by omega
    have hout : ¬ (8 * i + pos ≤ j ∧ j < 8 * i + pos + 8) := by omega
    simp [hfirst, hsecond, hout]
  · by_cases hin : pos ≤ j % 8
    · have hrange : 8 * i + pos ≤ j ∧ j < 8 * i + pos + 8 := by omega
      have hidx : pos + (7 - j % 8) = 7 - (j - (8 * i + pos)) := by omega
      simp [h, hrange, hidx]
    · have hout : ¬ (8 * i + pos ≤ j ∧ j < 8 * i + pos + 8) := by omega
      have hle : 2 ^ 8 ≤ 2 ^ (pos + (7 - j % 8)) := Nat.pow_le_pow_right (by omega) (by omega)
      have hzero := Nat.testBit_lt_two_pow (lt_of_lt_of_le hbyte hle)
      simp [h, hout, hzero]
  · by_cases hsecond : j / 8 = i + 1
    · by_cases hin : j % 8 < pos
      · have hrange : 8 * i + pos ≤ j ∧ j < 8 * i + pos + 8 := by omega
        have hidx : 7 - j % 8 - (8 - pos) = 7 - (j - (8 * i + pos)) := by omega
        have hle : 8 - pos ≤ 7 - j % 8 := by omega
        have hmask : 8 - pos + (7 - (j - (8 * i + pos))) < 8 := by omega
        simp [hsecond, hrange, hidx, hle, hmask]
      · have hout : ¬ (8 * i + pos ≤ j ∧ j < 8 * i + pos + 8) := by omega
        have hle : ¬ 8 - pos ≤ 7 - j % 8 := by omega
        simp [hsecond, hout, hle]
    · have hfirst : ¬ j / 8 = i := by omega
      have hout : ¬ (8 * i + pos ≤ j ∧ j < 8 * i + pos + 8) := by omega
      simp [hfirst, hsecond, hout]

/-! ## `setbits` -/

theorem testBit_left {n val k : Nat} (hn : n ≤ 32) (hk : k < 32) :
    ((val <<< (32 - n)) % 2 ^ 32).testBit (31 - k) = (decide (k < n) && val.testBit (n - 1 - k)) := by
  rw [Nat.testBit_mod_two_pow]
  by_cases h : k < n
  · have hidx : 31 - k - (32 - n) = n - 1 - k := by omega
    have hlt : 31 - k < 32 := by omega
    have hge : 32 - n ≤ 31 - k := by omega
    simp [h, hidx, hlt, hge]
  · have hge : ¬ 32 - n ≤ 31 - k := by omega
    simp [h, hge]

theorem bit_setbits_octet {m : Mem} {offset pos n val : Nat} (hn : 0 < n) (h : n + pos ≤ 8) (j : Nat) :
    (orOctet m offset ((val &&& (0xFF >>> ((8 - n) % 8))) <<< ((8 - n - pos) % 8))).bit j = (m.bit j ||
      (decide (8 * offset + pos ≤ j ∧ j < 8 * offset + pos + n) &&
        val.testBit (n - 1 - (j - (8 * offset + pos))))) := by
  have hmask : (8 - n) % 8 = 8 - n := by omega
  have hshift : (8 - n - pos) % 8 = 8 - n - pos := by omega
  rw [bit_orOctet, hmask, hshift, Nat.testBit_shiftLeft, Nat.testBit_and, Nat.testBit_shiftRight, testBit_mask]
  congr 1
  by_cases hin : 8 * offset + pos ≤ j ∧ j < 8 * offset + pos + n
  · have hoct : j / 8 = offset := by omega
    have hle : 8 - n - pos ≤ 7 - j % 8 := by omega
    have hidx : 7 - j % 8 - (8 - n - pos) = n - 1 - (j - (8 * offset + pos)) := by omega
    simp [hin, hoct, hle, hidx]
    omega
  · by_cases hoct : j / 8 = offset
    · by_cases hle : 8 - n - pos ≤ 7 - j % 8
      · have hlt : ¬ 8 - n + (7 - j % 8 - (8 - n - pos)) < 8 := by omega
        simp [hin, hlt]
      · simp [hin, hle]
    · simp [hin, hoct]

theorem testBit_leftOctet {n val i k : Nat} (hn : n ≤ 32) (hi : i < 4) (hk : k < 8) :
    (((val <<< (32 - n)) % 2 ^ 32 &&& (0xFF <<< (32 - 8 * (i + 1)))) >>> (32 - 8 * (i + 1))).testBit (7 - k)
      = (decide (8 * i + k < n) && val.testBit (n - 1 - (8 * i + k))) := by
  have hidx : 32 - 8 * (i + 1) + (7 - k) = 31 - (8 * i + k) := by omega
  rw [Nat.testBit_shiftRight, Nat.testBit_and, hidx, testBit_left hn (by omega), Nat.testBit_shiftLeft,
    testBit_mask]
  have hge : 32 - 8 * (i + 1) ≤ 31 - (8 * i + k) := by omega
  have hlt : 31 - (8 * i + k) - (32 - 8 * (i + 1)) < 8 := by omega
  simp [hge, hlt]

theorem leftOctet_lt (x s : Nat) : (x &&& (0xFF <<< s)) >>> s < 256 := by
  refine Nat.lt_pow_two_of_testBit (n := 8) _ fun k hk => ?_
  rw [Nat.testBit_shiftRight, Nat.testBit_and, Nat.testBit_shiftLeft, testBit_mask]
  simpa using fun _ => hk

theorem bit_setbits_split {m : Mem} {offset pos n val : Nat} (hpos : 0 < pos) (hlt : pos < 8) (hn : n ≤ 32)
    {c : Nat} (hc : c ≤ 4) (j : Nat) :
    ((List.range c).foldl (fun m i => orSplit m (offset + i) pos (((val <<< (32 - n)) % 2 ^ 32 &&&
        (0xFF <<< (32 - 8 * (i + 1)))) >>> (32 - 8 * (i + 1)))) m).bit j = (m.bit j ||
      (decide (8 * offset + pos ≤ j ∧ j < 8 * offset + pos + min n (8 * c)) &&
        val.testBit (n - 1 - (j - (8 * offset + pos))))) := by
  -- each turn sets the bits of one more octet of the value
  induction c with
  | zero => simp
  | succ c ih =>
    rw [List.range_succ, List.foldl_append, List.foldl_cons, List.foldl_nil,
      bit_orSplit hpos hlt (leftOctet_lt _ _), ih (by omega), Bool.or_assoc]
    congr 1
    by_cases hin : 8 * (offset + c) + pos ≤ j ∧ j < 8 * (offset + c) + pos + 8
    · have hk : j - (8 * (offset + c) + pos) < 8 := by omega
      have hidx : 8 * c + (j - (8 * (offset + c) + pos)) = j - (8 * offset + pos) := by omega
      have hout : ¬ (8 * offset + pos ≤ j ∧ j < 8 * offset + pos + min n (8 * c)) := by omega
      have hiff : (8 * offset + pos ≤ j ∧ j < 8 * offset + pos + min n (8 * (c + 1))) ↔
          j - (8 * offset + pos) < n := by omega
      rw [testBit_leftOctet hn (by omega) hk, hidx]
      simp [hin, hout, hiff]
    · have hiff : (8 * offset + pos ≤ j ∧ j < 8 * offset + pos + min n (8 * (c + 1))) ↔
          (8 * offset + pos ≤ j ∧ j < 8 * offset + pos + min n (8 * c)) := by omega
      simp [hin, hiff]

theorem bit_copy (m src : Mem) (i n j : Nat) :
    (m.copy src i n).bit j = if 8 * i ≤ j ∧ j < 8 * (i + n) then src.bit (j - 8 * i) else m.bit j := by
  unfold Mem.bit Mem.copy
  by_cases h : 8 * i ≤ j ∧ j < 8 * (i + n)
  · have hoct : i ≤ j / 8 ∧ j / 8 < i + n := by omega
    have hdiv : (j - 8 * i) / 8 = j / 8 - i := by omega
    have hmod : (j - 8 * i) % 8 = j % 8 := by omega
    rw [if_pos h, if_pos hoct, hdiv, hmod]
  · have hoct : ¬ (i ≤ j / 8 ∧ j / 8 < i + n) := by omega
    rw [if_neg h, if_neg hoct]

theorem bit_octetsOfNat (x : Nat) {k : Nat} (hk : k < 32) :
    (Mem.ofList (octetsOfNat 4 x)).bit k = (x % 2 ^ 32).testBit (31 - k) := by
  have hoct : k / 8 < 4 := by omega
  have hget : Mem.ofList (octetsOfNat 4 x) (k / 8) = UInt8.ofNat (x / 2 ^ (8 * (3 - k / 8))) := by
    simp [Mem.ofList, octetsOfNat, hoct, Nat.pow_mul]
  have hidx : 7 - k % 8 + 8 * (3 - k / 8) = 31 - k := by omega
  rw [Mem.bit, hget, testBit_ofNat, Nat.testBit_div_two_pow, hidx, Nat.testBit_mod_two_pow]
  have hlt : 7 - k % 8 < 8 := by omega
  have hlt' : 31 - k < 32 := by omega
  simp [hlt, hlt']

theorem le_octetsFor (n : Nat) : n ≤ 8 * octetsFor n := by
  unfold octetsFor
  split <;> omega

theorem octetsFor_lt (n : Nat) : 8 * octetsFor n < n + 8 := by
  unfold octetsFor
  split <;> omega

theorem octetsFor_mul (n : Nat) : octetsFor (8 * n) = n := by
  unfold octetsFor
  split <;> omega

/-- `setbits` sets the bits of the value at the position, in each of its three branches. -/
theorem bit_setbits {b : BinaryData} (hb : b.Clean) {n : Nat} (val : Nat) (hn : 0 < n) (hle : n ≤ 32) (j : Nat) :
    (setbits b n val).mem.bit j = (b.mem.bit j ||
      (decide (b.encPos ≤ j ∧ j < b.encPos + n) && val.testBit (n - 1 - (j - b.encPos)))) := by
  have hbytes := le_octetsFor n
  have hbytes' := octetsFor_lt n
  have hpos := hb.pos_lt
  simp only [setbits]
  split
  case isTrue hfit => exact bit_setbits_octet hn hfit j
  case isFalse hfit =>
    split
    case isTrue hzero =>
      -- the octets that are overwritten are zero
      have henc : b.encPos = 8 * b.offset := by rw [BinaryData.encPos, hzero, Nat.add_zero]
      rw [bit_copy, henc]
      by_cases hin : 8 * b.offset ≤ j ∧ j < 8 * (b.offset + octetsFor n)
      · have hclear := hb.zero j (by omega)
        have hiff : (8 * b.offset ≤ j ∧ j < 8 * b.offset + n) ↔ j - 8 * b.offset < n := by omega
        rw [if_pos hin, hclear, bit_octetsOfNat _ (by omega), testBit_left hle (by omega)]
        simp [hiff]
      · have hout : ¬ (8 * b.offset ≤ j ∧ j < 8 * b.offset + n) := by omega
        rw [if_neg hin]
        simp [hout]
    case isFalse hzero =>
      have hmin := Nat.min_eq_left hbytes
      have hall := @bit_setbits_split b.mem b.offset b.pos n val (Nat.pos_of_ne_zero hzero) hpos hle
        (octetsFor n) (by omega) j
      rwa [hmin] at hall

/-- Where `setbits` leaves the position: it moves over as many octets as hold the number of bits, not over the octets
that it has filled. -/
theorem encPos_setbits (b : BinaryData) (hpos : b.pos < 8) (n val : Nat) : (setbits b n val).encPos =
    if b.pos + n < 8 ∨ n % 8 = 0 ∨ 8 ≤ b.pos + n % 8 then b.encPos + n else b.encPos + n + 8 := by
  have hbytes := le_octetsFor n
  have hbytes' := octetsFor_lt n
  simp only [BinaryData.encPos, setbits]
  split <;> split <;> omega

theorem before_setbits {b : BinaryData} (hb : b.Clean) {n : Nat} (val : Nat) (hn : 0 < n) (hle : n ≤ 32) {i : Nat}
    (hi : i < b.encPos) : (setbits b n val).mem.bit i = b.mem.bit i := by
  have hout : ¬ (b.encPos ≤ i ∧ i < b.encPos + n) := by omega
  rw [bit_setbits hb val hn hle]
  simp [hout]

theorem bits_setbits {b : BinaryData} (hb : b.Clean) {n : Nat} (val : Nat) (hn : 0 < n) (hle : n ≤ 32) :
    (setbits b n val).mem.bits b.encPos n = natBits n val := by
  refine List.map_congr_left fun k hk => ?_
  have hk := List.mem_range.mp hk
  rw [bit_setbits hb val hn hle, hb.zero _ (by omega)]
  simp [hk]

/-- `setbits` appends the low bits of its value, for the numbers of bits that the program uses. -/
theorem encodes_setbits {n : Nat} (val : Nat) (hn : 0 < n) (hle : n ≤ 32) (hsize : n ≤ 8 ∨ n % 8 = 0) :
    Encodes (setbits · n val) (.raw (natBits n val)) := fun b hb => by
  have hpos := hb.pos_lt
  have henc : (setbits b n val).encPos = b.encPos + n := by
    rw [encPos_setbits b hpos, if_pos (by omega)]
  have hlen := length_natBits n val
  refine ⟨⟨?_, fun i (hi : (setbits b n val).encPos ≤ i) => ?_⟩, ?_, fun i hi => ?_, ?_, ?_, rfl⟩
  · simp only [setbits]
    split <;> omega
  · have hout : ¬ (b.encPos ≤ i ∧ i < b.encPos + n) := by omega
    rw [bit_setbits hb val hn hle, hb.zero i (by omega)]
    simp [hout]
  · rw [henc, BitFormat.raw, hlen]
  · exact before_setbits hb val hn hle hi
  · rw [BitFormat.raw, hlen]
    exact bits_setbits hb val hn hle
  · rw [BitFormat.raw, hlen]
    rfl

/-- The cursor agrees with the number of bits. -/
def BinaryData.Consistent (b : BinaryData) : Prop := b.length = UInt32.ofNat (8 * (b.offset - b.data) + b.pos)

/-- **`setbits`.** At every bit position and for every number of bits and value, what is there before stays, the next
bits are those of the value, and the cursor stands behind them: if and only if the bits end within the first octet, fill
whole octets, or have a rest that does not fit into the octet in which they start. -/
theorem setbits_appends_iff {b : BinaryData} (hb : b.Clean) (hdata : b.data ≤ b.offset) (hc : b.Consistent)
    {n val : Nat} (hn : 0 < n) (hle : n ≤ 32) (hval : val < 2 ^ n) :
    ((∀ i < b.encPos, (setbits b n val).mem.bit i = b.mem.bit i) ∧
      natOfBits ((setbits b n val).mem.bits b.encPos n) = val ∧ (setbits b n val).Consistent ∧
      (setbits b n val).encPos = b.encPos + n) ↔
    b.pos + n < 8 ∨ n % 8 = 0 ∨ 8 ≤ b.pos + n % 8 := by
  have hpos := encPos_setbits b hb.pos_lt n val
  constructor
  · rintro ⟨-, -, -, henc⟩
    by_contra hcond
    rw [if_neg hcond] at hpos
    omega
  · intro hcond
    rw [if_pos hcond] at hpos
    refine ⟨fun i hi => before_setbits hb val hn hle hi, ?_, ?_, hpos⟩
    · rw [bits_setbits hb val hn hle, natOfBits_natBits, Nat.mod_eq_of_lt hval]
    · have hoffset : b.offset ≤ (setbits b n val).offset := by
        simp only [setbits]
        split <;> omega
      have hcursor : 8 * (b.offset - b.data) + b.pos + n =
          8 * ((setbits b n val).offset - b.data) + (setbits b n val).pos := by
        simp only [BinaryData.encPos] at hpos
        omega
      show b.length + UInt32.ofNat n = _
      rw [hc, ← UInt32.ofNat_add, hcursor]
      rfl

/-- A bit string of 10 bits that starts at the seventh bit of an octet. -/
theorem setbits_appends_unaligned : (setbits (setbits .empty 6 0) 10 0x3FF).encPos = 16 := by
  have hclean := (encodes_setbits (n := 6) 0 (by decide) (by decide) (.inl (by decide)) _ BinaryData.clean_empty).toClean
  exact ((setbits_appends_iff hclean (Nat.zero_le _) rfl (by decide) (by decide)
    (by decide)).mpr (.inr (.inr (by decide)))).2.2.2

/-- At the start of an octet the cursor skips an octet after 10 bits. -/
theorem not_setbits_appends : (setbits .empty 10 0x3FF).encPos = 18 ∧ ¬ (setbits .empty 10 0x3FF).Consistent := by
  refine ⟨rfl, fun h => ?_⟩
  cases show (0 : UInt32) + 10 = 18 from h

theorem encodes_alignEnc : Encodes alignEnc .align := fun b hb => by
  have hpos := hb.pos_lt
  by_cases hzero : b.pos = 0
  · have hsame : alignEnc b = b := by simp [alignEnc, hzero]
    have hnone : BitFormat.align b.encPos = [] := by simp [BitFormat.align, BinaryData.encPos, hzero]
    rw [hsame, hnone]
    exact hb.appends_nil
  · have hpad : BitFormat.align b.encPos = List.replicate (8 - b.pos) false := by
      rw [BitFormat.align, BinaryData.encPos]
      congr 1
      omega
    have heq : alignEnc b =
        { b with length := b.length + UInt32.ofNat (8 - b.pos), pos := 0, offset := b.offset + 1 } := by
      simp [alignEnc, hzero]
    have henc : (alignEnc b).encPos = b.encPos + (8 - b.pos) := by
      rw [heq]
      simp only [BinaryData.encPos]
      omega
    have hmem : (alignEnc b).mem = b.mem := by rw [heq]
    rw [hpad]
    refine ⟨⟨by simp [heq], fun i hi => ?_⟩, by simpa using henc, fun i _ => by rw [hmem], ?_, ?_, by rw [heq]⟩
    · rw [hmem]
      exact hb.zero i (by omega)
    · refine List.ext_getElem (by simp) fun k h₁ h₂ => ?_
      simpa [Mem.bits, hmem] using hb.zero _ (Nat.le_add_right _ _)
    · rw [heq, List.length_replicate]

/-! ## The other encoders -/

def octetsFormat (l : List UInt8) : BitFormat := BitFormat.align.seq (.raw (bitsOfOctets l))

theorem concat_octets (l : List UInt8) :
    BitFormat.concat (l.map fun x => .raw (octetBits x)) = .raw (bitsOfOctets l) := by
  induction l with
  | nil => rfl
  | cons x l ih => rw [List.map_cons, BitFormat.concat_cons, ih]; rfl

theorem encodes_setbits_octet (x : UInt8) : Encodes (setbits · 8 x.toNat) (.raw (octetBits x)) :=
  encodes_setbits x.toNat (by omega) (by omega) (by omega)

theorem encodes_setoctets (l : List UInt8) : Encodes (setoctets · l) (octetsFormat l) := by
  have hloop : Encodes (fun b => l.foldl (fun b x => setbits b 8 x.toNat) b) (.raw (bitsOfOctets l)) := by
    rw [← concat_octets]
    exact Encodes.foldl fun x _ => encodes_setbits_octet x
  exact encodes_alignEnc.seq hloop

theorem fieldWidth_pos (range : Nat) : 0 < fieldWidth range := by
  unfold fieldWidth
  split_ifs <;> omega

theorem fieldWidth_le (range : Nat) : fieldWidth range ≤ 8 := by
  unfold fieldWidth
  split_ifs <;> omega

/-- A constrained number whose range is at most 255. -/
def bitFieldFormat (val lb ub : Nat) : BitFormat := .raw (natBits (fieldWidth (rangeOf lb ub)) (val2 val lb))

theorem encodes_encodeBitField (val lb ub : Nat) :
    Encodes (encodeBitField · val lb ub) (bitFieldFormat val lb ub) :=
  encodes_setbits _ (fieldWidth_pos _) (le_trans (fieldWidth_le _) (by omega)) (.inl (fieldWidth_le _))

/-- A number of octets and the octets. -/
def countedFormat (val ub : Nat) : BitFormat := (bitFieldFormat (eint val).length 1 ub).seq (octetsFormat (eint val))

theorem encodes_encodeCounted (val ub : Nat) : Encodes (encodeCounted · val ub) (countedFormat val ub) :=
  (encodes_encodeBitField _ 1 ub).seq (encodes_setoctets _)

def numberFormat (val lb ub : Nat) : BitFormat :=
  let range := rangeOf lb ub
  if range ≤ 255 then bitFieldFormat val lb ub
  else if range ≤ 256 then octetsFormat [UInt8.ofNat (val2 val lb)]
  else if range ≤ 65536 then
    octetsFormat [UInt8.ofNat ((val2 val lb &&& 0xFF00) >>> 8), UInt8.ofNat (val2 val lb &&& 0xFF)]
  else if range ≤ 0x1000000 then countedFormat val 3
  else if range ≤ 0x100000000 then countedFormat val 4
  else if range ≤ 0x10000000000 then countedFormat val 5
  else .nil

theorem encodes_encodeConstrainedNumber (val lb ub : Nat) :
    Encodes (encodeConstrainedNumber · val lb ub) (numberFormat val lb ub) := by
  simp only [encodeConstrainedNumber, numberFormat]
  split_ifs
  · exact encodes_encodeBitField val lb ub
  · exact encodes_setoctets _
  · exact encodes_setoctets _
  · exact encodes_encodeCounted val 3
  · exact encodes_encodeCounted val 4
  · exact encodes_encodeCounted val 5
  · exact Encodes.nil

/-- The octets of a length, in one or two octets. -/
def lengthOctets (val : Nat) : List UInt8 :=
  if val < 128 then [UInt8.ofNat (val &&& 0x7F)]
  else [UInt8.ofNat ((val &&& 0x3F00) >>> 8) ||| 0x80, UInt8.ofNat (val &&& 0xFF)]

theorem length_lengthOctets_le (n : Nat) : (lengthOctets n).length ≤ 2 := by
  unfold lengthOctets
  split <;> simp

theorem encodes_encodeUnconstrainedNumber {val : Nat} (h : val < 16384) :
    Encodes (encodeUnconstrainedNumber · val) (octetsFormat (lengthOctets val)) := by
  simp only [encodeUnconstrainedNumber, lengthOctets]
  split_ifs
  · exact encodes_setoctets _
  · exact encodes_setoctets _

/-- A length and the octets of an open type. -/
def openTypeFormat (l : List UInt8) : BitFormat := (octetsFormat (lengthOctets l.length)).seq (octetsFormat l)

def BinaryData.octets (b : BinaryData) : List UInt8 := b.mem.read b.data (octetsFor b.length.toNat)

theorem encodes_encodeOpenType {d : BinaryData} (h : d.octets.length < 16384) :
    Encodes (encodeOpenType · d) (openTypeFormat d.octets) := by
  have hlen : d.octets.length = octetsFor d.length.toNat := Mem.length_read ..
  have hnum := encodes_encodeUnconstrainedNumber h
  rw [hlen] at hnum
  rw [openTypeFormat, hlen]
  exact hnum.seq (encodes_setoctets _)

/-- An octet string: not aligned when it has at most two octets. -/
def octetStringFormat (l : List UInt8) : BitFormat :=
  if l.length ≤ 2 then .raw (bitsOfOctets l) else octetsFormat l

theorem natBits_pair (x y : UInt8) : natBits 16 ((x.toNat <<< 8) ||| y.toNat) = bitsOfOctets [x, y] := by
  have hx : (x.toNat <<< 8 ||| y.toNat) / 2 ^ 8 = x.toNat := by
    rw [← Nat.shiftLeft_add_eq_or_of_lt y.toNat_lt]
    have hy := y.toNat_lt
    omega
  have hy : natBits 8 (x.toNat <<< 8 ||| y.toNat) = natBits 8 y.toNat := by
    rw [← natBits_mod, ← Nat.shiftLeft_add_eq_or_of_lt y.toNat_lt, Nat.shiftLeft_eq, Nat.mul_add_mod',
      Nat.mod_eq_of_lt y.toNat_lt]
  rw [natBits_add 8 8, hx, hy]
  simp [octetBits]

theorem encodes_encodeOctetString {l : List UInt8} (h : l.length ≤ 65535) :
    Encodes (encodeOctetString · l) (octetStringFormat l) := by
  match l with
  | [] => exact Encodes.nil
  | [x] =>
    exact encodes_setbits_octet x
  | [x, y] =>
    have hbits : octetStringFormat [x, y] = .raw (natBits 16 ((x.toNat <<< 8) ||| y.toNat)) := by
      rw [natBits_pair]
      rfl
    rw [hbits]
    exact encodes_setbits _ (by omega) (by omega) (by omega)
  | x :: y :: z :: l =>
    have hlong : octetStringFormat (x :: y :: z :: l) = octetsFormat (x :: y :: z :: l) := by
      simp [octetStringFormat]
    have henc : (encodeOctetString · (x :: y :: z :: l)) = (setoctets · (x :: y :: z :: l)) := by
      funext b
      simp only [encodeOctetString, if_pos h]
    rw [henc]
    exact encodes_setoctets _

end AaltoMME.PER
