import AaltoMME.Base.CMAC
import AaltoMME.NAS.Algorithms
import Mathlib.Tactic.IntervalCases

/-!
# EIA2 is AES-CMAC

`eia2.c` works on octets with lengths in bits: it holds the last block back, pads it in place and doubles
its subkeys octet by octet.  The CMAC of the library is over strings of bits, and the two agree on every
message, whatever its length in bits.
-/

namespace AaltoMME.NAS

open Base

variable {P : Prims}

/-! ## The subkeys -/

/-- The constant of the field with `2 ^ 128` elements. -/
def r128 : List Bool := List.replicate 120 false ++ [true, false, false, false, false, true, true, true]

/-- The block cipher on strings of bits. -/
def aesBits (P : Prims) (k : List UInt8) (block : List Bool) : List Bool :=
  bitsOfOctets (P.aes128 k (octetsOfBits block))

@[simp] theorem aesBits_bitsOfOctets (k l : List UInt8) :
    aesBits P k (bitsOfOctets l) = bitsOfOctets (P.aes128 k l) := by
  simp [aesBits]

theorem bitsOfOctets_xorBlock (a b : List UInt8) :
    bitsOfOctets (xorBlock a b) = xorBits (bitsOfOctets a) (bitsOfOctets b) :=
  bitsOfOctets_zipWith_xor a b

theorem octetBits_eq (x : UInt8) : octetBits x = [x.toNat.testBit 7, x.toNat.testBit 6, x.toNat.testBit 5,
    x.toNat.testBit 4, x.toNat.testBit 3, x.toNat.testBit 2, x.toNat.testBit 1, x.toNat.testBit 0] := rfl

theorem testBit_shift_or (x y : UInt8) {i : Nat} (h : i < 7) :
    ((x <<< 1) ||| (y >>> 7)).toNat.testBit (i + 1) = x.toNat.testBit i := by
  have hy : y.toNat.testBit (7 + (i + 1)) = false :=
    Nat.testBit_lt_two_pow (lt_of_lt_of_le y.toNat_lt (Nat.pow_le_pow_right (by omega) (by omega)))
  rw [UInt8.toNat_or, UInt8.toNat_shiftLeft, UInt8.toNat_shiftRight, Nat.testBit_or, Nat.testBit_mod_two_pow,
    Nat.testBit_shiftLeft, Nat.testBit_shiftRight]
  simp [hy]
  omega

/-- An octet that is shifted to the left, with the first bit of the next one. -/
theorem octetBits_shift_or (x y : UInt8) :
    octetBits ((x <<< 1) ||| (y >>> 7)) = (octetBits x).tail ++ [y.toNat.testBit 7] := by
  have hbit := fun i (h : i < 7) => testBit_shift_or x y h
  have hzero : ((x <<< 1) ||| (y >>> 7)).toNat.testBit 0 = y.toNat.testBit 7 := by
    simp
  simp only [octetBits_eq, List.tail_cons, List.cons_append, List.nil_append, hzero]
  simp only [hbit 6 (by omega), hbit 5 (by omega), hbit 4 (by omega), hbit 3 (by omega), hbit 2 (by omega),
    hbit 1 (by omega), hbit 0 (by omega)]

/-- A string of octets shifted left by one bit. -/
def shiftOctets : List UInt8 → List UInt8
  | [] => []
  | x :: l => ((x <<< 1) ||| (l.headD 0 >>> 7)) :: shiftOctets l

theorem bitsOfOctets_shiftOctets {l : List UInt8} (h : l ≠ []) :
    bitsOfOctets (shiftOctets l) = (bitsOfOctets l).tail ++ [false] := by
  induction l with
  | nil => exact absurd rfl h
  | cons x l ih =>
    have htail : (octetBits x ++ bitsOfOctets l).tail = (octetBits x).tail ++ bitsOfOctets l := rfl
    rw [shiftOctets, bitsOfOctets_cons, octetBits_shift_or, bitsOfOctets_cons, htail]
    cases l with
    | nil => simp [shiftOctets]
    | cons y l =>
      have hhead : bitsOfOctets (y :: l) = y.toNat.testBit 7 :: (bitsOfOctets (y :: l)).tail := rfl
      rw [ih nofun, hhead]
      simp

theorem getElem?_shiftOctets {l : List UInt8} {i : Nat} (h : i < l.length) :
    (shiftOctets l)[i]? = some ((l.getD i 0 <<< 1) ||| (l.getD (i + 1) 0 >>> 7)) := by
  induction l generalizing i with
  | nil => cases h
  | cons x l ih =>
    cases i with
    | zero => cases l <;> rfl
    | succ i => simpa [shiftOctets] using ih (Nat.lt_of_succ_lt_succ h)

theorem makeKn_eq {l : List UInt8} (h : l.length = 16) : makeKn 16 l =
    xorBlock (shiftOctets l) (List.replicate 15 0 ++ [if l.getD 0 0 >>> 7 = 1 then 0x87 else 0]) := by
  refine List.ext_getElem? fun i => ?_
  by_cases hi : i < 16
  · rw [xorBlock, List.getElem?_zipWith, getElem?_shiftOctets (h ▸ hi)]
    by_cases hlast : i < 15
    · rw [List.getElem?_append_left (by simpa using hlast), List.getElem?_replicate_of_lt hlast]
      simp [makeKn, hi, hlast]
    · obtain rfl : i = 15 := by omega
      have hnext : l[16]?.getD 0 = 0 := by simp [h]
      simp [makeKn, hnext]
  · have hlen : ∀ l : List UInt8, (shiftOctets l).length = l.length := fun l => by
      induction l with
      | nil => rfl
      | cons x l ih => simp [shiftOctets, ih]
    rw [List.getElem?_eq_none (by simp [makeKn]; omega), List.getElem?_eq_none]
    simp [xorBlock, hlen, h]
    omega

theorem shiftRight_seven_eq_one (x : UInt8) : x >>> 7 = 1 ↔ x.toNat.testBit 7 = true := by
  have hlt := x.toNat_lt
  rw [← UInt8.toNat_inj, UInt8.toNat_shiftRight, Nat.testBit_eq_decide_div_mod_eq, decide_eq_true_iff]
  simp only [UInt8.reduceToNat, Nat.reduceMod]
  omega

theorem bitsOfOctets_makeKn {l : List UInt8} (h : l.length = 16) :
    bitsOfOctets (makeKn 16 l) = CMAC.double r128 (bitsOfOctets l) := by
  have hne : l ≠ [] := by rintro rfl; cases h
  have hhead : (bitsOfOctets l).headD false = (l.getD 0 0).toNat.testBit 7 := by
    cases l with
    | nil => cases h
    | cons x l => rfl
  rw [makeKn_eq h, bitsOfOctets_xorBlock, bitsOfOctets_shiftOctets hne, CMAC.double, hhead]
  by_cases hc : (l.getD 0 0).toNat.testBit 7 = true
  · rw [if_pos ((shiftRight_seven_eq_one _).mpr hc), if_pos hc]
    rfl
  · rw [if_neg (mt (shiftRight_seven_eq_one _).mp hc), if_neg hc]
    exact xorBits_replicate_false (n := 128) (by simp [h])

/-! ## The last block -/

/-- The octet of a last block that is not complete: its first bits, one 1 and 0s. -/
def paddedOctet (x : UInt8) (r : Nat) : UInt8 :=
  if r = 0 then 0x80 else (x ||| (1 <<< UInt8.ofNat (7 - r))) &&& (0xFF <<< UInt8.ofNat (7 - r))

theorem testBit_paddedOctet (x : UInt8) {r i : Nat} (hr : r < 8) (hi : i < 8) :
    (paddedOctet x r).toNat.testBit (7 - i) = if i < r then x.toNat.testBit (7 - i) else decide (i = r) := by
  have h256 : ∀ k, k < 8 → (UInt8.ofNat k).toNat % 8 = k := fun k hk => by
    rw [UInt8.toNat_ofNat_of_lt' (by simp only [UInt8.size]; omega), Nat.mod_eq_of_lt hk]
  have hff : (255 : Nat) = 2 ^ 8 - 1 := rfl
  unfold paddedOctet
  split
  · rename_i h0
    subst h0
    interval_cases i <;> rfl
  · rw [UInt8.toNat_and, UInt8.toNat_or, UInt8.toNat_shiftLeft, UInt8.toNat_shiftLeft, h256 _ (by omega),
      Nat.testBit_and, Nat.testBit_or, Nat.testBit_mod_two_pow, Nat.testBit_mod_two_pow, Nat.testBit_shiftLeft,
      Nat.testBit_shiftLeft]
    simp only [UInt8.reduceToNat]
    rw [hff, Nat.testBit_two_pow_sub_one]
    rcases lt_trichotomy i r with hlt | rfl | hgt
    · have hle : 7 - r ≤ 7 - i := by omega
      have hone : Nat.testBit 1 (7 - i - (7 - r)) = false := Nat.testBit_lt_two_pow (Nat.one_lt_two_pow (by omega))
      simp [hlt, hle, hone]
      omega
    · simp
      omega
    · have hnle : ¬ 7 - r ≤ 7 - i := by omega
      simp [hnle, hgt.not_gt, hgt.ne']

theorem octetBits_paddedOctet (x : UInt8) {r : Nat} (h : r < 8) :
    octetBits (paddedOctet x r) = (octetBits x).take r ++ true :: List.replicate (7 - r) false := by
  refine List.ext_getElem (by simp; omega) fun i h₁ h₂ => ?_
  have hi : i < 8 := by simpa using h₁
  have hbit := testBit_paddedOctet x h hi
  have hleft : (octetBits (paddedOctet x r))[i] = (paddedOctet x r).toNat.testBit (7 - i) := by
    simp [octetBits, natBits]
  refine hleft.trans (hbit.trans ?_)
  rw [List.getElem_append]
  simp only [List.length_take, length_octetBits, Nat.min_eq_left h.le]
  split
  · simp [octetBits, natBits]
  · rename_i hir
    rcases Nat.eq_or_lt_of_not_lt hir with rfl | hgt
    · simp
    · obtain ⟨j, hj⟩ : ∃ j, i - r = j + 1 := ⟨i - r - 1, by omega⟩
      simp [hj, hgt.ne']

theorem bitsOfOctets_padded (m : Mem) {n : Nat} (h : n < 128) :
    bitsOfOctets (m.read 0 (n / 8) ++ paddedOctet (m (n / 8)) (n % 8) :: List.replicate (15 - n / 8) 0) =
      m.bits 0 n ++ true :: List.replicate (128 - n - 1) false := by
  have hsplit : m.bits 0 n = m.bits 0 (8 * (n / 8)) ++ m.bits (8 * (n / 8)) (n % 8) := by
    have hadd := m.bits_add 0 (8 * (n / 8)) (n % 8)
    rwa [Nat.div_add_mod, Nat.zero_add] at hadd
  have htake : (octetBits (m (n / 8))).take (n % 8) = m.bits (8 * (n / 8)) (n % 8) := by
    have hadd := m.bits_add (8 * (n / 8)) (n % 8) (8 - n % 8)
    have h8 : n % 8 + (8 - n % 8) = 8 := by omega
    rw [h8, Mem.bits_octet] at hadd
    rw [hadd, List.take_left' (Mem.length_bits ..)]
  have hzeros : 7 - n % 8 + 8 * (15 - n / 8) = 128 - n - 1 := by omega
  rw [bitsOfOctets_append, bitsOfOctets_cons, octetBits_paddedOctet _ (Nat.mod_lt _ (by omega)), htake,
    Mem.bitsOfOctets_read, Nat.mul_zero, bitsOfOctets_replicate_zero, hsplit, ← hzeros,
    ← List.replicate_append_replicate]
  simp only [List.append_assoc, List.cons_append]

/-! ## Chaining -/

/-- The subkeys of a context are those of its key. -/
structure CMACCtx.Keyed (P : Prims) (k : List UInt8) (ctx : CMACCtx) : Prop where
  key : ctx.key = k
  k1 : bitsOfOctets ctx.k1 = CMAC.k1 (aesBits P k) 128 r128
  k2 : bitsOfOctets ctx.k2 = CMAC.k2 (aesBits P k) 128 r128

theorem keyed_nasCMACInit (hP : P.BlockSized) (k : List UInt8) : (nasCMACInit P.aes k).Keyed P k := by
  have hzero : xorBlock (List.replicate 16 0) (List.replicate 16 0) = (List.replicate 16 0 : List UInt8) := rfl
  have hbits : bitsOfOctets (List.replicate 16 0) = List.replicate 128 false := rfl
  have hk1 : bitsOfOctets (nasCMACInit P.aes k).k1 = CMAC.k1 (aesBits P k) 128 r128 := by
    simp only [nasCMACInit, Prims.blockSize_aes, Prims.encrypt_aes, hzero]
    rw [bitsOfOctets_makeKn (hP _ _), CMAC.k1, ← hbits, aesBits_bitsOfOctets]
  have hlen : (makeKn 16 (P.aes128 k (xorBlock (List.replicate 16 0) (List.replicate 16 0)))).length = 16 := by
    simp [makeKn]
  refine ⟨rfl, hk1, ?_⟩
  rw [CMAC.k2, ← hk1]
  exact bitsOfOctets_makeKn hlen

theorem CMACCtx.Keyed.evpCipher {k : List UInt8} {ctx : CMACCtx} (h : ctx.Keyed P k) (block : List UInt8) :
    (evpCipher P.aes ctx block).Keyed P k :=
  ⟨h.key, h.k1, h.k2⟩

theorem bits_evpCipher {k : List UInt8} {ctx : CMACCtx} (h : ctx.Keyed P k) (block : List UInt8) :
    bitsOfOctets (evpCipher P.aes ctx block).iv =
      aesBits P k (xorBits (bitsOfOctets ctx.iv) (bitsOfOctets block)) := by
  rw [xorBits_comm, ← bitsOfOctets_xorBlock, aesBits_bitsOfOctets, ← h.key]
  rfl

/-- What `NAS_CMAC_Final` makes of a last block that was copied from `data`. -/
theorem bits_nasCMACFinal {k : List UInt8} {ctx : CMACCtx} (h : ctx.Keyed P k) (data : Mem) {n : Nat}
    (hn : n ≤ 128) :
    bitsOfOctets (nasCMACFinal P.aes { ctx with
      lastBlock := ctx.lastBlock.copy data 0 (bitOctets n), nlastBlock := n }) =
      CMAC.chain (aesBits P k) 128 r128 (bitsOfOctets ctx.iv) (data.bits 0 n) := by
  have hkeyed : CMACCtx.Keyed P k { ctx with
      lastBlock := ctx.lastBlock.copy data 0 (bitOctets n), nlastBlock := n } := ⟨h.key, h.k1, h.k2⟩
  have hbits : (ctx.lastBlock.copy data 0 (bitOctets n)).bits 0 n = data.bits 0 n := by
    refine Mem.bits_congr fun i hi => ?_
    have hlt : (0 + i) / 8 < 0 + bitOctets n := by
      unfold bitOctets
      split <;> omega
    rw [Mem.bit, Mem.bit, Mem.copy_of_mem _ _ _ _ _ (Nat.zero_le _) hlt, Nat.sub_zero]
  rw [CMAC.chain_of_length_le (by omega) (by simpa using hn), ← hbits]
  generalize ctx.lastBlock.copy data 0 (bitOctets n) = m at hkeyed
  simp only [CMAC.lastBlock, Mem.length_bits]
  rcases Nat.eq_or_lt_of_le hn with rfl | hlt
  · have hread := m.bitsOfOctets_read 0 16
    simp only [nasCMACFinal, Prims.blockSize_aes, if_true]
    rw [bits_evpCipher hkeyed, bitsOfOctets_xorBlock, hread, xorBits_comm (m.bits 0 128), h.k1]
  · have hpad := bitsOfOctets_padded m hlt
    simp only [paddedOctet] at hpad
    simp only [nasCMACFinal, Prims.blockSize_aes, hlt.ne, if_false, Nat.sub_right_comm]
    rw [bits_evpCipher hkeyed, bitsOfOctets_xorBlock, hpad, xorBits_comm _ (bitsOfOctets ctx.k2), h.k2]

/-- The loop of `NAS_CMAC_Update` and what follows it.  The induction is on the length. -/
theorem bits_cmacAbsorb {k : List UInt8} {ctx : CMACCtx} (h : ctx.Keyed P k) (data : Mem) (n : Nat) :
    bitsOfOctets (nasCMACFinal P.aes (cmacAbsorb P.aes ctx data n)) =
      CMAC.chain (aesBits P k) 128 r128 (bitsOfOctets ctx.iv) (data.bits 0 n) := by
  induction n using Nat.strong_induction_on generalizing ctx data with
  | _ n ih =>
    by_cases hlt : 128 < n
    · have hfirst : data.bits 0 n = data.bits 0 128 ++ (data.shift 16).bits 0 (n - 128) := by
        have hadd := data.bits_add 0 128 (n - 128)
        rw [Nat.add_sub_cancel' hlt.le] at hadd
        exact hadd.trans (congrArg _ (data.bits_shift 16 0 (n - 128)).symm)
      have hread := data.bitsOfOctets_read 0 16
      have hblock := ih (n - 128) (by omega) (h.evpCipher (data.read 0 16)) (data.shift 16)
      rw [bits_evpCipher h, hread] at hblock
      rw [CMAC.chain_of_lt_length (by omega) (by rwa [Mem.length_bits]), hfirst,
        List.take_left' (Mem.length_bits ..), List.drop_left' (Mem.length_bits ..), ← hblock,
        cmacAbsorb_of_lt (by simp) hlt]
      rfl
    · rw [cmacAbsorb_of_le (not_lt.mp hlt)]
      exact bits_nasCMACFinal h data (not_lt.mp hlt)

/-! ## EIA2 -/

/-- The input of 128-EIA2: COUNT, BEARER, DIRECTION, 26 zeros and the message. -/
def eia2Input (count : List UInt8) (bearer direction : UInt8) (msg : Mem) (mLen : Nat) : List Bool :=
  bitsOfOctets count ++ natBits 5 bearer.toNat ++ natBits 1 direction.toNat ++ List.replicate 26 false ++
    msg.bits 0 mLen

theorem octetBits_bearer {bearer direction : UInt8} (hb : bearer < 32) (hd : direction < 2) :
    octetBits ((bearer <<< 3) ||| (direction <<< 2)) =
      natBits 5 bearer.toNat ++ natBits 1 direction.toNat ++ List.replicate 2 false := by
  have hb : bearer.toNat < 32 := UInt8.lt_iff_toNat_lt.mp hb
  have hd : direction.toNat < 2 := UInt8.lt_iff_toNat_lt.mp hd
  have hval : ((bearer <<< 3) ||| (direction <<< 2)).toNat = bearer.toNat * 8 + direction.toNat * 4 := by
    have hb8 : (bearer <<< 3).toNat = bearer.toNat <<< 3 := by
      have hlt : bearer.toNat <<< 3 < 2 ^ 8 := by
        omega
      exact (UInt8.toNat_shiftLeft ..).trans (Nat.mod_eq_of_lt hlt)
    have hd4 : (direction <<< 2).toNat = direction.toNat * 4 := by
      have hlt : direction.toNat <<< 2 < 2 ^ 8 := by
        omega
      exact (UInt8.toNat_shiftLeft ..).trans ((Nat.mod_eq_of_lt hlt).trans (Nat.shiftLeft_eq ..))
    rw [UInt8.toNat_or, hb8, hd4, ← Nat.shiftLeft_add_eq_or_of_lt (by omega), Nat.shiftLeft_eq]
  have h8 : (bearer.toNat * 8 + direction.toNat * 4) / 2 ^ 3 = bearer.toNat := by omega
  have h4 : (bearer.toNat * 8 + direction.toNat * 4) / 2 ^ 2 % 2 ^ 1 = direction.toNat := by omega
  have h0 : (bearer.toNat * 8 + direction.toNat * 4) % 2 ^ 2 = 0 := by omega
  rw [octetBits, hval, natBits_add 5 3, natBits_add 1 2, h8, ← natBits_mod 1, h4, ← natBits_mod 2, h0,
    natBits_zero_right, List.append_assoc]

theorem bits_eia2Input {count : List UInt8} (hc : count.length = 4) {bearer direction : UInt8}
    (hb : bearer < 32) (hd : direction < 2) (msg : Mem) (mLen : Nat) :
    ((Mem.ofList (count ++ [(bearer <<< 3) ||| (direction <<< 2)])).copy msg 8 (bitOctets mLen)).bits 0
      (64 + mLen) = eia2Input count bearer direction msg mLen := by
  generalize hs : (Mem.ofList (count ++ [(bearer <<< 3) ||| (direction <<< 2)])).copy msg 8 (bitOctets mLen) = s
  have hhead : s.read 0 8 = count ++ [(bearer <<< 3) ||| (direction <<< 2)] ++ List.replicate 3 0 := by
    obtain ⟨c₀, c₁, c₂, c₃, rfl⟩ := List.length_eq_four.mp hc
    rw [← hs]
    rfl
  have hmsg : s.bits 64 mLen = msg.bits 0 mLen := by
    refine Mem.bits_congr fun i hi => ?_
    have hlt : (64 + i) / 8 < 8 + bitOctets mLen := by
      unfold bitOctets
      split <;> omega
    have hdiv : (64 + i) / 8 - 8 = (0 + i) / 8 := by omega
    have hmod : (64 + i) % 8 = (0 + i) % 8 := by omega
    rw [Mem.bit, Mem.bit, ← hs, Mem.copy_of_mem _ _ _ _ _ (by omega) hlt, hdiv, hmod]
  have hzeros : List.replicate 26 false = List.replicate 2 false ++ List.replicate 24 false := rfl
  have hread : s.bits 0 64 = bitsOfOctets (s.read 0 8) := (s.bitsOfOctets_read 0 8).symm
  rw [s.bits_add, Nat.zero_add, hmsg, hread, hhead, bitsOfOctets_append, bitsOfOctets_append, bitsOfOctets_cons,
    octetBits_bearer hb hd, eia2Input, hzeros]
  simp only [bitsOfOctets_nil, bitsOfOctets_replicate_zero, List.append_assoc, List.append_nil]

/-- `eia2` writes the first 32 bits of the CMAC of its input, and does not read the bits of the last octet
that are not part of the message. -/
theorem eia2_eq_cmac (hP : P.BlockSized) (k : List UInt8) {count : List UInt8} (hc : count.length = 4)
    {bearer direction : UInt8} (hb : bearer < 32) (hd : direction < 2) (msg : Mem) (mLen : Nat) :
    (∃ digest, eia2 P k count bearer direction msg mLen = .ok digest ∧
      bitsOfOctets digest =
        (CMAC.cmac (aesBits P k) 128 r128 (eia2Input count bearer direction msg mLen)).take 32) ∧
    ∀ msg' : Mem, msg'.bits 0 mLen = msg.bits 0 mLen →
      eia2 P k count bearer direction msg' mLen = eia2 P k count bearer direction msg mLen := by
  have hspec : ∀ m : Mem, ∃ digest, eia2 P k count bearer direction m mLen = .ok digest ∧
      bitsOfOctets digest =
        (CMAC.cmac (aesBits P k) 128 r128 (eia2Input count bearer direction m mLen)).take 32 := by
    intro m
    have hupdate : ∀ s, nasCMACUpdate P.aes (nasCMACInit P.aes k) s (64 + mLen) =
        .ok (cmacAbsorb P.aes (nasCMACInit P.aes k) s (64 + mLen)) := fun s => by
      simp [nasCMACUpdate, nasCMACInit]
    have hiv : bitsOfOctets (nasCMACInit P.aes k).iv = List.replicate 128 false := bitsOfOctets_replicate_zero 16
    refine ⟨_, by rw [eia2, hupdate, ok_bind], ?_⟩
    rw [bitsOfOctets_take, bits_cmacAbsorb (keyed_nasCMACInit hP k), bits_eia2Input hc hb hd]
    rfl
  refine ⟨hspec msg, fun msg' hmsg => ?_⟩
  obtain ⟨d, hd, hbits⟩ := hspec msg
  obtain ⟨d', hd', hbits'⟩ := hspec msg'
  rw [hd, hd']
  refine congrArg Except.ok (bitsOfOctets_injective ?_)
  rw [hbits, hbits', eia2Input, eia2Input, hmsg]

/-- The AES of the first test set for EIA2 in `main_tests.c`. -/
def testSet1 : Prims := .ofAnswers
  [(0x2bd6459f82c5b300952c49104881ff48, 0, 0x6e4261385adfc1fcb7c85f0c469fb20c),
    (0x2bd6459f82c5b300952c49104881ff48, 0x81af74b7ab7f07f2ec1348537947f0d7,
      0x118c6eb8b775144b0b83111054c96eb6)] [] fun _ => 0

def testSet1Key : List UInt8 :=
  [0x2b, 0xd6, 0x45, 0x9f, 0x82, 0xc5, 0xb3, 0x00, 0x95, 0x2c, 0x49, 0x10, 0x48, 0x81, 0xff, 0x48]

def testSet1Msg : Mem := .ofList [0x33, 0x32, 0x34, 0x62, 0x63, 0x39, 0x38, 0x40]

/-- The test set, whose message has 58 bits. -/
theorem eia2_eq_cmac_testSet1 :
    eia2 testSet1 testSet1Key [0x38, 0xa6, 0xf0, 0x56] 0x18 0 testSet1Msg 58 = .ok [0x11, 0x8c, 0x6e, 0xb8] ∧
    bitsOfOctets [0x11, 0x8c, 0x6e, 0xb8] = (CMAC.cmac (aesBits testSet1 testSet1Key) 128 r128
      (eia2Input [0x38, 0xa6, 0xf0, 0x56] 0x18 0 testSet1Msg 58)).take 32 := by
  have hc : [0x38, 0xa6, 0xf0, 0x56].length = 4 := rfl
  obtain ⟨⟨digest, hdigest, hbits⟩, -⟩ := @eia2_eq_cmac testSet1 (Prims.ofAnswers_blockSized _ _ _) testSet1Key
    [0x38, 0xa6, 0xf0, 0x56] hc 0x18 0 (by decide) (by decide) testSet1Msg 58
  have hok : (eia2 testSet1 testSet1Key [0x38, 0xa6, 0xf0, 0x56] 0x18 0 testSet1Msg 58).toOption =
      some [0x11, 0x8c, 0x6e, 0xb8] := by decide +kernel
  rw [hdigest] at hok
  obtain rfl : digest = [0x11, 0x8c, 0x6e, 0xb8] := Option.some.inj hok
  exact ⟨hdigest, hbits⟩

end AaltoMME.NAS
