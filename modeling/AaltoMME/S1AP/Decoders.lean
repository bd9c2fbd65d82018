import AaltoMME.S1AP.Encoders

/-!
# What the decoders read

A decoder that stands before the bits of a format returns what they encode and stands behind them.
`getbits` does not count down `length` when it is not aligned, so `length` can be larger than what is left;
the check of `getoctets` only needs it not to be smaller.
-/

namespace AaltoMME.PER

open Base

/-! ## Advancing -/

namespace BinaryData

/-- The position of a decoder, in bits. -/
def decPos (d : BinaryData) : Nat := 8 * d.data + d.pos

/-- `length` reaches at least to the bit `total`. -/
def Covers (d : BinaryData) (total : Nat) : Prop := total ≤ 8 * d.data + d.length.toNat

/-- `d'` is `d` moved over `n` bits. -/
structure Advances (d d' : BinaryData) (n : Nat) : Prop where
  mem_eq : d'.mem = d.mem
  pos_lt : d'.pos < 8
  decPos_eq : d'.decPos = d.decPos + n
  covers : ∀ total, d.decPos + n ≤ total → d.Covers total → d'.Covers total

theorem Covers.mono {d : BinaryData} {total total' : Nat} (h : d.Covers total) (hle : total' ≤ total) :
    d.Covers total' :=
  le_trans hle h

theorem Advances.refl {d : BinaryData} (h : d.pos < 8) : d.Advances d 0 := ⟨rfl, h, rfl, fun _ _ h => h⟩

theorem Advances.trans {d d' d'' : BinaryData} {n n' : Nat} (h : d.Advances d' n) (h' : d'.Advances d'' n') :
    d.Advances d'' (n + n') where
  mem_eq := h'.mem_eq.trans h.mem_eq
  pos_lt := h'.pos_lt
  decPos_eq := by rw [h'.decPos_eq, h.decPos_eq, Nat.add_assoc]
  covers total hle hc := h'.covers total (by rw [h.decPos_eq]; omega) (h.covers total (by omega) hc)

/-- The subtraction from `length` does not wrap around where the length reaches far enough. -/
theorem toNat_length_sub {length : UInt32} {n : Nat} (h : n ≤ length.toNat) :
    (length - UInt32.ofNat n).toNat = length.toNat - n := by
  have hlt : n < 2 ^ 32 := lt_of_le_of_lt h length.toNat_lt
  have hn := UInt32.toNat_ofNat_of_lt' hlt
  rw [UInt32.toNat_sub_of_le _ _ (UInt32.le_iff_toNat_le.mpr (by rw [hn]; exact h)), hn]

theorem advances_octets {d : BinaryData} (hpos : d.pos = 0) (k : Nat) :
    d.Advances { d with data := d.data + k, length := d.length - UInt32.ofNat (8 * k) } (8 * k) where
  mem_eq := rfl
  pos_lt := by simp [hpos]
  decPos_eq := by simp only [decPos]; omega
  covers total hle hc := by
    simp only [decPos, Covers] at hle hc ⊢
    rw [toNat_length_sub (by omega)]
    omega

end BinaryData

theorem bind_of_ok {α β : Type} {x : Decoder α} {v : α} {d e : BinaryData} (k : α → Decoder β) (h : x d = .ok (v, e)) :
    (x >>= k) d = k v e := by
  show x d >>= _ = _
  rw [h]
  rfl

theorem bind_of_error {α β : Type} {x : Decoder α} {f : Fault} {d : BinaryData} (k : α → Decoder β) (h : x d = .error f) :
    (x >>= k) d = .error f := by
  show x d >>= _ = _
  rw [h]
  rfl

/-- A decoder reads a value from the bits of a format. -/
def Decodes {α : Type} (x : Decoder α) (v : α) (f : BitFormat) : Prop :=
  ∀ d : BinaryData, d.pos < 8 → f.At d.mem d.decPos → d.Covers (f.stop d.decPos) →
    ∃ d', x d = .ok (v, d') ∧ d.Advances d' (f d.decPos).length

namespace Decodes

variable {α β : Type} {x : Decoder α} {k : α → Decoder β} {v : α} {w : β} {f g : BitFormat}

theorem pure (v : α) : Decodes (Pure.pure v) v .nil := fun d hpos _ _ => ⟨d, rfl, .refl hpos⟩

theorem bind (h : Decodes x v f) (h' : Decodes (k v) w g) : Decodes (x >>= k) w (f.seq g) :=
  fun d hpos hat hc => by
    obtain ⟨hf, hg⟩ := BitFormat.at_seq.mp hat
    rw [BitFormat.stop_seq] at hc
    obtain ⟨d', hx, hadv⟩ := h d hpos hf (hc.mono (g.le_stop _))
    have hdec : d'.decPos = f.stop d.decPos := hadv.decPos_eq
    rw [← hdec] at hg hc
    obtain ⟨d'', hk, hadv'⟩ := h' d' hadv.pos_lt (hadv.mem_eq ▸ hg) (hadv.covers _ (by
      rw [← hadv.decPos_eq]; exact g.le_stop _) hc)
    refine ⟨d'', ?_, ?_⟩
    · rw [← hk]
      show x d >>= _ = _
      rw [hx]
      rfl
    · rw [BitFormat.seq, List.length_append]
      rw [hdec] at hadv'
      exact hadv.trans hadv'

theorem map (h : Decodes x v f) (g : α → β) : Decodes (x >>= fun v => Pure.pure (g v)) (g v) f :=
  f.seq_nil ▸ h.bind (.pure (g v))

theorem congr {x' : Decoder α} (h : Decodes x v f) (heq : x' = x) : Decodes x' v f := heq ▸ h

/-- A decoder on a buffer that starts with the bits of its format. -/
theorem run_ofBuffer (h : Decodes x v f) {m : Mem} (length : UInt32) (hat : f.At m 0)
    (hlength : f.stop 0 ≤ length.toNat) : ∃ d', x (.ofBuffer m length) = .ok (v, d') ∧ d'.decPos = f.stop 0 := by
  obtain ⟨d', hdec, hadv⟩ := h (.ofBuffer m length) (Nat.zero_lt_succ _) hat
    (hlength.trans (Nat.le_add_left ..))
  exact ⟨d', hdec, hadv.decPos_eq⟩

/-- A decoder where the bits of its format were appended. -/
theorem read_appended (h : Decodes x v f) {b b' d : BinaryData} (happ : b.Appends b' (f b.encPos)) (hpos : d.pos < 8)
    (hmem : d.mem = b'.mem) (hdec : d.decPos = b.encPos) (hc : d.Covers b'.encPos) :
    ∃ d', x d = .ok (v, d') ∧ d'.decPos = b'.encPos := by
  rw [happ.encPos_eq, ← hdec] at hc ⊢
  obtain ⟨d', hd', hadv⟩ := h d hpos (by rw [hmem, hdec]; exact happ.bits) hc
  exact ⟨d', hd', hadv.decPos_eq⟩

/-- A loop that reads one element after the other and adds it to a list with room for less than `max`. -/
theorem iterate {loop : Nat → List α → Decoder (List α)} {s : List α → Decoder (List α)} {l : List β} {v : β → α}
    {f : β → BitFormat} {max : Nat} (hzero : ∀ c, loop 0 c = Pure.pure c)
    (hsucc : ∀ n c, loop (n + 1) c = s c >>= loop n)
    (hstep : ∀ x ∈ l, ∀ c : List α, c.length + 1 < max → Decodes (s c) (c ++ [v x]) (f x)) {c : List α}
    (hsize : c.length + l.length < max) : Decodes (loop l.length c) (c ++ l.map v) (.concat (l.map f)) := by
  induction l generalizing c with
  | nil =>
    rw [List.length_nil, hzero, List.map_nil, List.append_nil]
    exact pure c
  | cons x l ih =>
    rw [List.length_cons] at hsize
    have hrest := ih (c := c ++ [v x]) (fun y hy => hstep y (List.mem_cons_of_mem x hy))
      (by rw [List.length_append, List.length_singleton]; omega)
    rw [List.append_assoc] at hrest
    rw [List.length_cons, hsucc]
    exact (hstep x List.mem_cons_self c (by omega)).bind hrest

/-- What an encoder writes at any position of any buffer is read back there, and the decoder stops where the encoder
did. -/
def ReadsBack (enc : BinaryData → BinaryData) (x : Decoder α) (v : α) : Prop :=
  ∀ b d : BinaryData, b.Clean → d.pos < 8 → d.mem = (enc b).mem → d.decPos = b.encPos → d.Covers (enc b).encPos →
    ∃ d', x d = .ok (v, d') ∧ d'.decPos = (enc b).encPos

theorem readsBack (h : Decodes x v f) {enc : BinaryData → BinaryData} (henc : Encodes enc f) : ReadsBack enc x v :=
  fun b _ hb hpos hmem hdec hc => h.read_appended (henc b hb) hpos hmem hdec hc

end Decodes

/-! ## `getbits` -/

theorem testBit_joinOctets {pos r : Nat} (hpos : pos < 8) (hr : r < 8) (m : Mem) (i : Nat) :
    (joinOctets pos (m i) (m (i + 1))).toNat.testBit (7 - r) = m.bit (8 * i + pos + r) := by
  have hlt : 7 - r < 8 := by omega
  rw [joinOctets, UInt8.toNat_or, Nat.testBit_or, testBit_ofNat, testBit_ofNat, Nat.testBit_shiftLeft,
    Nat.testBit_shiftRight, Nat.testBit_and, Nat.testBit_shiftLeft, testBit_mask, Mem.bit]
  by_cases hin : pos + r < 8
  · have hdiv : (8 * i + pos + r) / 8 = i := by omega
    have hle : pos ≤ 7 - r := by omega
    have hidx : 7 - (8 * i + pos + r) % 8 = 7 - r - pos := by omega
    have hpow : 2 ^ 8 ≤ 2 ^ (8 - pos + (7 - r)) := Nat.pow_le_pow_right (by omega) (by omega)
    have hzero := Nat.testBit_lt_two_pow (lt_of_lt_of_le (m (i + 1)).toNat_lt hpow)
    simp [hlt, hdiv, hle, hidx, hzero]
  · have hdiv : (8 * i + pos + r) / 8 = i + 1 := by omega
    have hle : ¬ pos ≤ 7 - r := by omega
    have hidx : 7 - (8 * i + pos + r) % 8 = 8 - pos + (7 - r) := by omega
    simp [hlt, hdiv, hle, hidx]

theorem bitsOfOctets_joinOctets {pos : Nat} (hpos : pos < 8) (m : Mem) (i c : Nat) :
    bitsOfOctets ((List.range c).map fun k => joinOctets pos (m (i + k)) (m (i + (k + 1)))) =
      m.bits (8 * i + pos) (8 * c) := by
  induction c with
  | zero => rfl
  | succ c ih =>
    have hlast : octetBits (joinOctets pos (m (i + c)) (m (i + (c + 1)))) = m.bits (8 * (i + c) + pos) 8 := by
      refine List.map_congr_left fun r hr => ?_
      exact testBit_joinOctets hpos (List.mem_range.mp hr) m (i + c)
    have hstart : 8 * i + pos + 8 * c = 8 * (i + c) + pos := by omega
    rw [List.range_succ, List.map_append, bitsOfOctets_append, ih, List.map_singleton, bitsOfOctets_cons,
      bitsOfOctets_nil, List.append_nil, hlast, Nat.mul_succ, Mem.bits_add, hstart]

theorem take_octetBits_shiftLeft {pos n : Nat} (h : pos + n ≤ 8) (m : Mem) (i : Nat) :
    (octetBits (UInt8.ofNat ((m i).toNat <<< pos))).take n = m.bits (8 * i + pos) n := by
  have hn : n ≤ 8 := by omega
  unfold octetBits natBits Mem.bits
  rw [← List.map_take, List.take_range, Nat.min_eq_left hn]
  refine List.map_congr_left fun r hr => ?_
  have hr := List.mem_range.mp hr
  have hlt : 8 - 1 - r < 8 := by omega
  have hle : pos ≤ 8 - 1 - r := by omega
  have hdiv : (8 * i + pos + r) / 8 = i := by omega
  have hidx : 7 - (8 * i + pos + r) % 8 = 8 - 1 - r - pos := by omega
  rw [testBit_ofNat, Mem.bit, hdiv, hidx]
  simp [hlt, hle]

/-- The last octet where it is a part: `tmp[i] &= 0xff << (8 - newused)`. -/
theorem testBit_lastOctet {x k u : Nat} (hk : k < 8) (hu : u ≤ 8) :
    (UInt8.ofNat x &&& UInt8.ofNat (0xFF <<< (8 - u))).toNat.testBit (7 - k) =
      ((UInt8.ofNat x).toNat.testBit (7 - k) && decide (k < u)) := by
  have hlt : 7 - k < 8 := by omega
  have hin : 7 - k - (8 - u) < 8 := by omega
  have hle : 8 - u ≤ 7 - k ↔ k < u := by omega
  rw [UInt8.toNat_and, Nat.testBit_and, testBit_ofNat (0xFF <<< (8 - u)), Nat.testBit_shiftLeft, testBit_mask]
  simp [hlt, hin, hle]

/-- `getbits` moves over the bits, whatever it stores. -/
theorem advances_getbits {d : BinaryData} (hpos : d.pos < 8) {n : Nat} (hn : 0 < n) :
    ∃ l d', getbits n d = .ok (l, d') ∧ l.length = octetsFor n ∧ d.Advances d' n := by
  have hcount := le_octetsFor n
  have hcount' := octetsFor_lt n
  by_cases haligned : n % 8 = 0 ∧ d.pos = 0
  · obtain ⟨k, rfl⟩ := Nat.dvd_of_mod_eq_zero haligned.1
    have hdiv : 8 * k / 8 = k := by omega
    refine ⟨_, _, if_pos haligned, ?_, ?_⟩
    · rw [Mem.length_read, octetsFor_mul, hdiv]
    · rw [hdiv]
      exact BinaryData.advances_octets haligned.2 k
  · refine ⟨_, _, if_neg haligned, ?_, rfl, Nat.mod_lt _ (by omega), ?_, fun total _ hc => ?_⟩
    · split
      · rw [List.length_singleton]
        omega
      · rw [List.length_map, List.length_range]
    · have hbytes := le_octetsFor (n + d.pos)
      have hbytes' := octetsFor_lt (n + d.pos)
      simp only [BinaryData.decPos]
      split <;> omega
    · have hle : d.data ≤ if (n + d.pos) % 8 = 0 then d.data + (octetsFor (n + d.pos) - 1) + 1
          else d.data + (octetsFor (n + d.pos) - 1) := by split <;> omega
      simp only [BinaryData.Covers] at hc ⊢
      omega

/-- What `getbits` stores for whole octets and a part of one: the part is taken from one octet only. -/
theorem getbits_part {d d' : BinaryData} {n : Nat} (hn : 8 < n) (hmod : n % 8 ≠ 0) {l : List UInt8}
    (h : getbits n d = .ok (l, d')) :
    l = ((List.range (n / 8)).map fun k => joinOctets d.pos (d.mem (d.data + k)) (d.mem (d.data + (k + 1)))) ++
      [UInt8.ofNat ((d.mem (d.data + n / 8)).toNat <<< d.pos) &&& UInt8.ofNat (0xFF <<< (8 - (n + d.pos) % 8))] := by
  have hcount : octetsFor n = n / 8 + 1 := if_pos hmod
  have hlast : ¬ ((n / 8 + 1) * 8 ≤ n ∨ n < 8) := by omega
  rw [getbits, if_neg (by omega)] at h
  cases h
  rw [if_neg (by omega), hcount, List.range_succ, List.map_append, List.map_singleton, if_neg hlast]
  refine congrArg (· ++ _) (List.map_congr_left fun k hk => ?_)
  have hk := List.mem_range.mp hk
  exact if_pos (.inl (by omega))

/-- The bits that `getbits` stores are those at the position, unless a part of an octet crosses into the next one. -/
theorem bits_getbits {d d' : BinaryData} (hpos : d.pos < 8) {n : Nat}
    (hsize : n ≤ 8 ∨ n % 8 = 0 ∨ d.pos + n % 8 < 8) {l : List UInt8} (h : getbits n d = .ok (l, d')) :
    (bitsOfOctets l).take n = d.mem.bits d.decPos n := by
  have hcount := le_octetsFor n
  have hcount' := octetsFor_lt n
  by_cases hpart : 8 < n ∧ n % 8 ≠ 0
  · have hlast : (octetBits (UInt8.ofNat ((d.mem (d.data + n / 8)).toNat <<< d.pos) &&&
        UInt8.ofNat (0xFF <<< (8 - (n + d.pos) % 8)))).take (n % 8) =
        d.mem.bits (8 * (d.data + n / 8) + d.pos) (n % 8) := by
      rw [← take_octetBits_shiftLeft (by omega), octetBits, octetBits, natBits, natBits, ← List.map_take,
        ← List.map_take, List.take_range]
      refine List.map_congr_left fun k hk => ?_
      have hk := List.mem_range.mp hk
      refine (testBit_lastOctet (by omega) (by omega)).trans ?_
      rw [decide_eq_true (by omega), Bool.and_true]
    have hbits : d.mem.bits d.decPos n =
        d.mem.bits (8 * d.data + d.pos) (8 * (n / 8)) ++ d.mem.bits (8 * (d.data + n / 8) + d.pos) (n % 8) := by
      conv_lhs => rw [← Nat.div_add_mod n 8]
      rw [BinaryData.decPos, Mem.bits_add, Nat.mul_add, Nat.add_right_comm]
    have hrest : n - 8 * (n / 8) = n % 8 := by omega
    rw [getbits_part hpart.1 hpart.2 h, bitsOfOctets_append, bitsOfOctets_joinOctets hpos, bitsOfOctets_cons,
      bitsOfOctets_nil, List.append_nil, List.take_append, Mem.length_bits, hrest, hlast, hbits,
      List.take_of_length_le (by rw [Mem.length_bits]; omega)]
  · by_cases haligned : n % 8 = 0 ∧ d.pos = 0
    · have hdec : d.decPos = 8 * d.data := by rw [BinaryData.decPos, haligned.2, Nat.add_zero]
      rw [getbits, if_pos haligned] at h
      cases h
      rw [Mem.bitsOfOctets_read, hdec]
      exact Mem.take_bits _ (by omega)
    · rw [getbits, if_neg haligned] at h
      cases h
      by_cases hfit : d.pos + n ≤ 8
      · rw [if_pos hfit]
        exact take_octetBits_shiftLeft hfit d.mem d.data
      · have hall : ∀ i ∈ List.range (octetsFor n), (i + 1) * 8 ≤ n ∨ n < 8 := fun i hi => by
          have hi := List.mem_range.mp hi
          omega
        rw [if_neg hfit, List.map_congr_left fun i hi => if_pos (hall i hi)]
        exact (congrArg (List.take n) (bitsOfOctets_joinOctets hpos d.mem d.data (octetsFor n))).trans
          (Mem.take_bits _ hcount)

/-- `getbits` stores the bits at the position and moves over them. -/
theorem getbits_eq {d : BinaryData} (hpos : d.pos < 8) {n : Nat} (hn : 0 < n)
    (hsize : n ≤ 8 ∨ n % 8 = 0 ∨ d.pos + n % 8 < 8) :
    ∃ l d', getbits n d = .ok (l, d') ∧ l.length = octetsFor n ∧
      (bitsOfOctets l).take n = d.mem.bits d.decPos n ∧ d.Advances d' n := by
  obtain ⟨l, d', hget, hlen, hadv⟩ := advances_getbits hpos hn
  exact ⟨l, d', hget, hlen, bits_getbits hpos hsize hget, hadv⟩

theorem decodes_getbits_octets {l : List UInt8} (hl : l ≠ []) :
    Decodes (getbits (8 * l.length)) l (.raw (bitsOfOctets l)) := fun d hpos hat _ => by
  have hlen : 0 < l.length := List.length_pos_iff.mpr hl
  obtain ⟨l', d', hget, hlen', hbits, hadv⟩ := getbits_eq (n := 8 * l.length) hpos (by omega) (by omega)
  have hat : d.mem.bits d.decPos (bitsOfOctets l).length = bitsOfOctets l := hat
  rw [length_bitsOfOctets] at hat
  have hwhole := List.take_of_length_le (by rw [length_bitsOfOctets, hlen', octetsFor_mul])
  have heq : l' = l := bitsOfOctets_injective (by rw [← hwhole, hbits, hat])
  rw [heq] at hget
  refine ⟨d', hget, ?_⟩
  rw [BitFormat.raw, length_bitsOfOctets]
  exact hadv

theorem shiftRight_eq (n : Nat) (x : UInt8) : x.toNat >>> (8 - n) = natOfBits ((octetBits x).take n) := by
  have hval : natOfBits (octetBits x) = x.toNat := by
    rw [octetBits, natOfBits_natBits, Nat.mod_eq_of_lt x.toNat_lt]
  have hshift := natOfBits_append_shiftRight ((octetBits x).take n) ((octetBits x).drop n)
  rwa [List.take_append_drop, List.length_drop, hval] at hshift

theorem shiftRight_eq_of_take {x : UInt8} {n v : Nat} (hv : v < 2 ^ n) (h : (octetBits x).take n = natBits n v) :
    x.toNat >>> (8 - n) = v := by
  rw [shiftRight_eq, h, natOfBits_natBits, Nat.mod_eq_of_lt hv]

/-- The number of the bits at the position, for at most an octet. -/
theorem getbits_number {d : BinaryData} (hpos : d.pos < 8) {n : Nat} (hn : 0 < n) (hle : n ≤ 8) :
    ∃ l d', getbits n d = .ok (l, d') ∧ (l.headD 0).toNat >>> (8 - n) = natOfBits (d.mem.bits d.decPos n) ∧
      d.Advances d' n := by
  obtain ⟨l, d', hget, hlen, hbits, hadv⟩ := getbits_eq hpos hn (.inl hle)
  refine ⟨l, d', hget, ?_, hadv⟩
  have hcount := le_octetsFor n
  cases l with
  | nil => rw [List.length_nil] at hlen; omega
  | cons x l =>
    rw [bitsOfOctets_cons, List.take_append_of_le_length (by rw [length_octetBits]; exact hle)] at hbits
    rw [← hbits, ← shiftRight_eq]
    rfl

theorem decodes_getbits {n v : Nat} (hn : 0 < n) (hle : n ≤ 8) (hv : v < 2 ^ n) :
    Decodes (getbits n >>= fun bits => pure ((bits.headD 0).toNat >>> (8 - n))) v (.raw (natBits n v)) :=
  fun d hpos hat _ => by
    obtain ⟨l, d', hget, hval, hadv⟩ := getbits_number hpos hn hle
    rw [BitFormat.at_raw, length_natBits] at hat
    rw [hat, natOfBits_natBits, Nat.mod_eq_of_lt hv] at hval
    refine ⟨d', (bind_of_ok _ hget).trans ?_, by rwa [BitFormat.raw, length_natBits]⟩
    rw [hval]
    rfl

/-- `getbit` returns the bit at the position and moves over it. -/
theorem getbit_eq {d : BinaryData} (hpos : d.pos < 8) :
    ∃ d', getbit d = .ok ((d.mem.bit d.decPos).toNat, d') ∧ d.Advances d' 1 := by
  have hdiv : d.decPos / 8 = d.data := by rw [BinaryData.decPos]; omega
  have hmod : 7 - d.decPos % 8 = 7 - d.pos := by rw [BinaryData.decPos]; omega
  have hval : ((d.mem d.data).toNat >>> (7 - d.pos)) &&& 0x1 = (d.mem.bit d.decPos).toNat := by
    rw [Mem.bit, hdiv, hmod, Nat.and_one_is_mod, Nat.shiftRight_eq_div_pow, Nat.toNat_testBit]
  have hpos' : ¬ 8 ≤ d.pos := by omega
  refine ⟨{ d with data := if d.pos + 1 = 8 then d.data + 1 else d.data, pos := (d.pos + 1) % 8 }, ?_, rfl,
    Nat.mod_lt _ (by omega), ?_, fun total _ hc => ?_⟩
  · simp only [getbit, if_neg hpos', hval]
  · simp only [BinaryData.decPos]
    split <;> omega
  · have hle : d.data ≤ if d.pos + 1 = 8 then d.data + 1 else d.data := by split <;> omega
    simp only [BinaryData.Covers] at hc ⊢
    omega

theorem decodes_getbit {v : Nat} (hv : v < 2) : Decodes getbit v (.raw (natBits 1 v)) := fun d hpos hat _ => by
  obtain ⟨d', hd', hadv⟩ := getbit_eq hpos
  have hat : d.mem.bits d.decPos 1 = natBits 1 v := hat
  have hbit : d.mem.bit d.decPos = v.testBit 0 := by simpa [Mem.bits, natBits] using hat
  rw [hbit, Nat.toNat_testBit, Nat.div_one, Nat.mod_eq_of_lt hv] at hd'
  exact ⟨d', hd', hadv⟩

/-! ## Octets -/

theorem decodes_alignDec : Decodes alignDec () .align := fun d hpos _ hc => by
  by_cases hzero : d.pos = 0
  · have hnone : BitFormat.align d.decPos = [] := by simp [BitFormat.align, BinaryData.decPos, hzero]
    rw [hnone]
    exact ⟨d, by simp [alignDec, hzero], .refl hpos⟩
  · have hpad : BitFormat.align d.decPos = List.replicate (8 - d.pos) false := by
      rw [BitFormat.align, BinaryData.decPos]
      congr 1
      omega
    rw [BitFormat.stop, hpad, List.length_replicate] at hc
    rw [hpad, List.length_replicate]
    have hlen : 8 ≤ d.length.toNat := by
      simp only [BinaryData.Covers, BinaryData.decPos] at hc
      omega
    have hsub : (d.length - 8).toNat = d.length.toNat - 8 := BinaryData.toNat_length_sub hlen
    refine ⟨{ d with data := d.data + 1, pos := 0, length := d.length - 8 }, by simp [alignDec, hzero], rfl,
      Nat.zero_lt_succ _, ?_, fun total _ hc => ?_⟩
    · simp only [BinaryData.decPos]
      omega
    · simp only [BinaryData.Covers] at hc ⊢
      omega

theorem Decodes.aligned {α : Type} {x : Decoder α} {v : α} {l : List UInt8}
    (h : ∀ d : BinaryData, d.pos = 0 → d.mem.read d.data l.length = l → 8 * l.length ≤ d.length.toNat →
      ∃ d', x d = .ok (v, d') ∧ d.Advances d' (8 * l.length)) :
    Decodes (alignDec >>= fun _ => x) v (octetsFormat l) := fun d hpos hat hc => by
  obtain ⟨halign, hraw⟩ := BitFormat.at_seq.mp hat
  rw [octetsFormat, BitFormat.stop_seq, BitFormat.stop_raw, length_bitsOfOctets] at hc
  obtain ⟨d', hd', hadv⟩ := decodes_alignDec d hpos halign (hc.mono (Nat.le_add_right ..))
  have hdec : d'.decPos = BitFormat.align.stop d.decPos := hadv.decPos_eq
  have hzero : d'.pos = 0 := by
    have hmod := BitFormat.stop_align_mod d.decPos
    have hlt := hadv.pos_lt
    rw [← hdec, BinaryData.decPos] at hmod
    omega
  have hstart : BitFormat.align.stop d.decPos = 8 * d'.data := by
    rw [← hdec, BinaryData.decPos, hzero, Nat.add_zero]
  have hread : d'.mem.read d'.data l.length = l := by
    rw [hstart, BitFormat.at_raw, length_bitsOfOctets] at hraw
    rw [hadv.mem_eq]
    exact Mem.read_eq_of_bits _ hraw
  have hlen : 8 * l.length ≤ d'.length.toNat := by
    have hc' := hadv.covers _ (by rw [← hadv.decPos_eq, hdec]; exact Nat.le_add_right ..) hc
    rw [hstart] at hc'
    exact Nat.le_of_add_le_add_left hc'
  obtain ⟨d'', hd'', hadv'⟩ := h d' hzero hread hlen
  refine ⟨d'', ?_, ?_⟩
  · show alignDec d >>= _ = _
    rw [hd']
    exact hd''
  · rw [octetsFormat, BitFormat.seq, List.length_append]
    show d.Advances d'' ((BitFormat.align d.decPos).length + (bitsOfOctets l).length)
    rw [length_bitsOfOctets]
    exact hadv.trans hadv'

theorem decodes_getoctets (l : List UInt8) : Decodes (getoctets l.length) (some l) (octetsFormat l) := by
  refine Decodes.aligned fun d hpos hread hlen => ?_
  have hcheck : ¬ d.length.toNat / 8 < l.length := by omega
  refine ⟨{ d with data := d.data + l.length, length := d.length - UInt32.ofNat (l.length * 8) }, ?_, ?_⟩
  · show (if d.length.toNat / 8 < l.length then _ else _ : Decoder _) d = _
    rw [if_neg hcheck, hread]
    rfl
  · rw [Nat.mul_comm l.length 8]
    exact BinaryData.advances_octets hpos l.length

theorem decodes_takeOctets (l : List UInt8) : Decodes (takeOctets l.length) l (octetsFormat l) := by
  rw [← BitFormat.seq_nil (octetsFormat l)]
  exact (decodes_getoctets l).bind (.pure l)

/-! ## Constrained numbers -/

theorem rangeOf_eq {lb ub : Nat} (hle : lb ≤ ub) (hub : ub - lb < 2 ^ 40) : rangeOf lb ub = ub - lb + 1 := by
  unfold rangeOf
  omega

theorem val2_eq {val lb : Nat} (hle : lb ≤ val) (hval : val < 2 ^ 32) : val2 val lb = val - lb := by
  unfold val2
  omega

theorem le_two_pow_fieldWidth {range : Nat} (h : range ≤ 255) : range ≤ 2 ^ fieldWidth range := by
  unfold fieldWidth
  split_ifs <;> omega

/-- The number of a field, whether it is in the range or not. -/
theorem decodeBitField_eq {d : BinaryData} (hpos : d.pos < 8) (lb ub : Nat) :
    ∃ d', decodeBitField lb ub d =
        .ok ((natOfBits (d.mem.bits d.decPos (fieldWidth (rangeOf lb ub))) + lb) % 2 ^ 32, d') ∧
      d.Advances d' (fieldWidth (rangeOf lb ub)) := by
  obtain ⟨l, d', hget, hval, hadv⟩ := getbits_number hpos (fieldWidth_pos (rangeOf lb ub)) (fieldWidth_le _)
  refine ⟨d', (bind_of_ok _ hget).trans ?_, hadv⟩
  rw [hval]
  rfl

theorem decodes_bitField {x lb ub : Nat} (h : x < 2 ^ fieldWidth (rangeOf lb ub)) :
    Decodes (decodeBitField lb ub) ((x + lb) % 2 ^ 32) (.raw (natBits (fieldWidth (rangeOf lb ub)) x)) := by
  have hget := (decodes_getbits (fieldWidth_pos (rangeOf lb ub)) (fieldWidth_le _) h).map fun n => (n + lb) % 2 ^ 32
  exact hget.congr (by simp only [decodeBitField, bind_assoc, pure_bind])

theorem correctEndianness_eq_reverse {l : List UInt8} (h : l.length ≤ 4) : correctEndianness l = l.reverse := by
  match l with
  | [] | [_] | [_, _] | [_, _, _] | [_, _, _, _] => rfl
  | _ :: _ :: _ :: _ :: _ :: _ =>
    simp only [List.length_cons] at h
    omega

theorem decodes_numberOfOctets {l : List UInt8} {k : Nat} (hk : l.length = k) (h : k ≤ 4) :
    Decodes (takeOctets k >>= numberOfOctets) (hostNat l.reverse) (octetsFormat l) := by
  subst hk
  have hval : numberOfOctets l = pure (hostNat l.reverse) := by
    rw [numberOfOctets, if_neg (by omega), correctEndianness_eq_reverse h]
  have hget := (decodes_takeOctets l).bind (hval ▸ Decodes.pure (hostNat l.reverse))
  rwa [BitFormat.seq_nil] at hget

theorem hostNat_eintLoop {k val : Nat} (h : val < 2 ^ (8 * k)) : hostNat (eintLoop k val) = val := by
  induction k generalizing val with
  | zero => simp at h; simp [eintLoop, hostNat, h]
  | succ k ih =>
    rw [eintLoop]
    by_cases hzero : val = 0
    · simp [hzero, hostNat]
    · have hlt : val >>> 8 < 2 ^ (8 * k) := by
        rw [Nat.shiftRight_eq_div_pow, Nat.div_lt_iff_lt_mul (by omega), ← Nat.pow_add]
        exact h
      have hlow : (UInt8.ofNat (val &&& 0xFF)).toNat = val % 256 := by
        rw [UInt8.toNat_ofNat', Nat.and_two_pow_sub_one_eq_mod val 8, Nat.mod_mod]
      have hrest := ih hlt
      rw [if_neg hzero, hostNat, List.foldr_cons, ← hostNat]
      omega

theorem length_eintLoop_le {k n val : Nat} (h : val < 2 ^ (8 * n)) : (eintLoop k val).length ≤ n := by
  induction k generalizing n val with
  | zero => exact Nat.zero_le n
  | succ k ih =>
    rw [eintLoop]
    by_cases hzero : val = 0
    · simp [hzero]
    · cases n with
      | zero => simp at h; exact absurd h hzero
      | succ n =>
        have hlt : val >>> 8 < 2 ^ (8 * n) := by
          rw [Nat.shiftRight_eq_div_pow, Nat.div_lt_iff_lt_mul (by omega), ← Nat.pow_add]
          exact h
        rw [if_neg hzero]
        exact Nat.succ_le_succ (ih hlt)

theorem hostNat_eint {val : Nat} (h : val < 2 ^ 64) : hostNat (eint val).reverse = val := by
  have hloop := hostNat_eintLoop (k := 8) h
  rw [eint]
  split
  case h_1 heq => rw [heq] at hloop; exact hloop
  case h_2 => rw [List.reverse_reverse]; exact hloop

theorem length_eint_pos (val : Nat) : 0 < (eint val).length := by
  rw [eint]
  split
  case h_1 => exact Nat.one_pos
  case h_2 hne =>
    rw [List.length_reverse]
    exact List.length_pos_iff.mpr hne

theorem length_eint_le {n val : Nat} (h : val < 2 ^ (8 * n)) (hn : 0 < n) : (eint val).length ≤ n := by
  rw [eint]
  split
  case h_1 => exact hn
  case h_2 => rw [List.length_reverse]; exact length_eintLoop_le h

theorem decodes_decodeCounted {val ub : Nat} (hlt : val < 2 ^ 32) (hub : ub = 3 ∨ ub = 4 ∨ ub = 5) :
    Decodes (decodeCounted ub) val (countedFormat val ub) := by
  have hlen := length_eint_le (n := 4) hlt (by omega)
  have hlen' := length_eint_pos val
  have hval : val2 (eint val).length 1 = (eint val).length - 1 := val2_eq hlen' (by omega)
  have hwidth : 4 ≤ 2 ^ fieldWidth (rangeOf 1 ub) := by
    rcases hub with rfl | rfl | rfl <;> decide
  have hcount := @decodes_bitField (val2 (eint val).length 1) 1 ub (by omega)
  have hsame : (val2 (eint val).length 1 + 1) % 2 ^ 32 = (eint val).length := by omega
  have hnum := decodes_numberOfOctets rfl hlen
  rw [hostNat_eint (by omega)] at hnum
  rw [hsame] at hcount
  exact hcount.bind hnum

theorem hostNat_singleton (w : Nat) : hostNat [UInt8.ofNat w].reverse = w % 256 := by
  simp [hostNat]

theorem and_FF00_shiftRight (w : Nat) : (w &&& 0xFF00) >>> 8 = w / 256 % 256 := by
  rw [Nat.shiftRight_and_distrib]
  exact (Nat.and_two_pow_sub_one_eq_mod (w >>> 8) 8).trans (by rw [Nat.shiftRight_eq_div_pow])

theorem hostNat_pair (w : Nat) :
    hostNat [UInt8.ofNat ((w &&& 0xFF00) >>> 8), UInt8.ofNat (w &&& 0xFF)].reverse = w % 65536 := by
  have hlow := Nat.and_two_pow_sub_one_eq_mod w 8
  simp only [List.reverse_cons, List.reverse_nil, List.nil_append, List.cons_append, hostNat, List.foldr_cons,
    List.foldr_nil, UInt8.toNat_ofNat', and_FF00_shiftRight, hlow]
  omega

/-- What is read back of a constrained number of 32 bits.  Where the octets are counted they are those of the number,
and the lower bound is added once more. -/
theorem decodes_number {val lb ub : Nat} (hlb : lb ≤ val) (hub : val ≤ ub) (hlt : val < 2 ^ 32) (hle : ub - lb < 2 ^ 40) :
    Decodes (decodeConstrainedNumber lb ub) (if ub - lb < 65536 then val else (val + lb) % 2 ^ 32)
      (numberFormat val lb ub) := by
  have hr := rangeOf_eq (hlb.trans hub) hle
  have hv := val2_eq hlb hlt
  have hadd : (val - lb + lb) % 2 ^ 32 = val := by omega
  by_cases hsmall : ub - lb < 65536
  · simp only [decodeConstrainedNumber, numberFormat]
    split_ifs with h₁ h₂ h₃
    · have hwidth := le_two_pow_fieldWidth h₁
      have hfield := @decodes_bitField (val2 val lb) lb ub (by omega)
      rwa [hv, hadd, ← hv] at hfield
    · have hone := (decodes_numberOfOctets (l := [UInt8.ofNat (val2 val lb)]) (k := 1) rfl (by omega)).map
        fun n => (n + lb) % 2 ^ 32
      have hval : val2 val lb % 256 = val - lb := by omega
      rwa [hostNat_singleton, hval, hadd] at hone
    · have htwo := (decodes_numberOfOctets (l := [UInt8.ofNat ((val2 val lb &&& 0xFF00) >>> 8),
        UInt8.ofNat (val2 val lb &&& 0xFF)]) (k := 2) rfl (by omega)).map fun n => (n + lb) % 2 ^ 32
      have hval : val2 val lb % 65536 = val - lb := by omega
      rwa [hostNat_pair, hval, hadd] at htwo
    all_goals omega
  · have hcounted : ∀ k, k = 3 ∨ k = 4 ∨ k = 5 → Decodes (decodeCounted k >>= fun n => pure ((n + lb) % 2 ^ 32))
        ((val + lb) % 2 ^ 32) (countedFormat val k) :=
      fun k hk => (decodes_decodeCounted hlt hk).map fun n => (n + lb) % 2 ^ 32
    simp only [decodeConstrainedNumber, numberFormat]
    split_ifs
    · omega
    · omega
    · omega
    · exact hcounted 3 (.inl rfl)
    · exact hcounted 4 (.inr (.inl rfl))
    · exact hcounted 5 (.inr (.inr rfl))
    · omega

/-- A constrained number is read back where its range fits two octets or starts at zero. -/
theorem decodes_decodeConstrainedNumber {val lb ub : Nat} (hlb : lb ≤ val) (hub : val ≤ ub) (hlt : ub < 2 ^ 32)
    (hrange : ub - lb + 1 ≤ 65536 ∨ lb = 0) :
    Decodes (decodeConstrainedNumber lb ub) val (numberFormat val lb ub) := by
  have hread := decodes_number hlb hub (by omega) (by omega)
  have hval : (if ub - lb < 65536 then val else (val + lb) % 2 ^ 32) = val := by
    split <;> omega
  rwa [hval] at hread

/-! ## Open types and octet strings -/

theorem lengthOctet_short : ∀ n < 128, n &&& 0x80 = 0 ∧ n &&& 0x7F = n := by decide

theorem lengthOctet_long : ∀ k < 64, (UInt8.ofNat k ||| 0x80).toNat = 128 + k ∧ (128 + k) &&& 0x80 ≠ 0 ∧
    (128 + k) &&& 0xC0 = 0x80 := by
  decide

theorem decodes_decodeLengthUndef {n : Nat} (h : n < 16384) :
    Decodes decodeLengthUndef n (octetsFormat (lengthOctets n)) := by
  refine Decodes.aligned fun d hpos hread _ => ?_
  have hadv := BinaryData.advances_octets hpos (lengthOctets n).length
  by_cases hsmall : n < 128
  · obtain ⟨hbit, hlow⟩ := lengthOctet_short n hsmall
    have hoctets : lengthOctets n = [UInt8.ofNat n] := by rw [lengthOctets, if_pos hsmall, hlow]
    rw [hoctets] at hread hadv ⊢
    have hx : (d.mem d.data).toNat = n := by
      have hfirst : d.mem d.data = UInt8.ofNat n := by simpa [Mem.read] using hread
      rw [hfirst, UInt8.toNat_ofNat', Nat.mod_eq_of_lt (by omega)]
    refine ⟨_, ?_, hadv⟩
    show (if (d.mem d.data).toNat &&& 0x80 = 0 then _ else _ : Decoder Nat) d = _
    rw [hx, if_pos hbit, hlow]
    rfl
  · obtain ⟨hoctet, hbit, hbits⟩ := lengthOctet_long (n / 256) (by omega)
    have hhigh : (n &&& 0x3F00) >>> 8 = n / 256 := by
      rw [Nat.shiftRight_and_distrib]
      refine (Nat.and_two_pow_sub_one_eq_mod (n >>> 8) 6).trans ?_
      omega
    have hoctets : lengthOctets n = [UInt8.ofNat (n / 256) ||| 0x80, UInt8.ofNat (n % 256)] := by
      rw [lengthOctets, if_neg hsmall, hhigh, Nat.and_two_pow_sub_one_eq_mod n 8]
    rw [hoctets] at hread hadv ⊢
    obtain ⟨hfirst, hsecond⟩ : d.mem d.data = UInt8.ofNat (n / 256) ||| 0x80 ∧
        d.mem (d.data + 1) = UInt8.ofNat (n % 256) := by
      simpa [Mem.read, List.range_succ] using hread
    have hx : (d.mem d.data).toNat = 128 + n / 256 := by rw [hfirst, hoctet]
    have hy : (d.mem (d.data + 1)).toNat = n % 256 := by
      rw [hsecond, UInt8.toNat_ofNat', Nat.mod_mod]
    have hval : ((128 + n / 256) * 256 + n % 256) &&& 0x3FFF = n := by
      refine (Nat.and_two_pow_sub_one_eq_mod _ 14).trans ?_
      omega
    refine ⟨_, ?_, hadv⟩
    show (if (d.mem d.data).toNat &&& 0x80 = 0 then _ else if (d.mem d.data).toNat &&& 0xC0 = 0x80 then _ else _ :
      Decoder Nat) d = _
    rw [hx, hy, if_neg hbit, if_pos hbits, hval]
    rfl

theorem decodes_decodeOpenType {l : List UInt8} {capacity : Nat} (h : l.length < 16384)
    (hcap : l.length ≤ capacity) : Decodes (decodeOpenType capacity) l (openTypeFormat l) := by
  have hbody : (takeOctets l.length >>= fun octets => (if capacity < l.length then throw .overflow
      else pure octets : Decoder (List UInt8))) = (takeOctets l.length >>= pure) := by
    simp only [if_neg (not_lt.mpr hcap)]
  have htake := (decodes_takeOctets l).map fun octets => octets
  rw [← hbody] at htake
  exact (decodes_decodeLengthUndef h).bind htake

theorem decodes_decodeOctetString {l : List UInt8} (h : l.length ≤ 65535) :
    Decodes (decodeOctetString l.length) l (octetStringFormat l) := by
  match l with
  | [] => exact Decodes.pure []
  | [x] => exact decodes_getbits_octets nofun
  | [x, y] => exact decodes_getbits_octets nofun
  | x :: y :: z :: l =>
    have hlong : octetStringFormat (x :: y :: z :: l) = octetsFormat (x :: y :: z :: l) := by
      simp [octetStringFormat]
    have hdec : decodeOctetString (x :: y :: z :: l).length = (getoctets (x :: y :: z :: l).length >>=
        fun o => pure (o.getD (List.replicate (x :: y :: z :: l).length 0))) := by
      rw [decodeOctetString, if_neg (by simp), if_neg (by simp), if_neg (by simp), if_pos h]
    rw [hdec]
    exact (decodes_getoctets _).map fun o => o.getD (List.replicate (x :: y :: z :: l).length 0)

end AaltoMME.PER
