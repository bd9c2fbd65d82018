import AaltoMME.GTP.IE
import AaltoMME.S1.Setup

/-!
# Decimal digits in octets

Two decimal digits share an octet, the first one in the low half.  In a PLMN the third digit of the network code
stands before the other two, in the half that is filled with ones if the code has two digits.  Both functions that
build a PLMN put it there, but the three that read one take it for the first digit.  The last octet of an IMSI has one
digit and a filler; `dec2tbcd` masks both away.
-/

namespace AaltoMME

open Base

/-! ## Octets -/

/-- `high << 4 | low`. -/
def tbcdOctet (high low : Nat) : UInt8 := UInt8.ofNat (high <<< 4 ||| low)

/-- `octet & 0x0F`. -/
def lowDigit (octet : UInt8) : Nat := (octet &&& 0x0F).toNat

/-- `(octet & 0xF0) >> 4`, which is `octet >> 4`. -/
def highDigit (octet : UInt8) : Nat := ((octet &&& 0xF0) >>> 4).toNat

theorem lowDigit_tbcdOctet : ∀ {h l : Nat}, h < 16 → l < 16 → lowDigit (tbcdOctet h l) = l := by
  have hall : ∀ h < 16, ∀ l < 16, lowDigit (tbcdOctet h l) = l := by decide
  exact @fun h l hh hl => hall h hh l hl

theorem highDigit_tbcdOctet : ∀ {h l : Nat}, h < 16 → l < 16 → highDigit (tbcdOctet h l) = h := by
  have hall : ∀ h < 16, ∀ l < 16, highDigit (tbcdOctet h l) = h := by decide
  exact @fun h l hh hl => hall h hh l hl

/-! ## PLMN -/

/-- `plmnId_MccMnc2tbcd`. -/
def plmnIdMccMnc2tbcd (mcc mnc : Nat) : PLMN :=
  if mnc / 100 = 0 then
    ⟨tbcdOctet (mcc % 100 / 10) (mcc / 100), tbcdOctet 0xF (mcc % 10), tbcdOctet (mnc % 10) (mnc / 10)⟩
  else
    ⟨tbcdOctet (mcc % 100 / 10) (mcc / 100), tbcdOctet (mnc % 10) (mcc % 10), tbcdOctet (mnc % 100 / 10) (mnc / 100)⟩

/-- `plmn_FillFromMCCMNCs`. -/
def plmnFillFromMCCMNCs (mcc mnc : Nat) : PLMN :=
  if mnc / 100 = 0 then
    ⟨tbcdOctet (mcc % 100 / 10) (mcc / 100), tbcdOctet 0xF (mcc % 10), tbcdOctet (mnc % 10) (mnc / 10)⟩
  else
    ⟨tbcdOctet (mcc % 100 / 10) (mcc / 100), tbcdOctet (mnc % 10) (mcc % 10), tbcdOctet (mnc % 100 / 10) (mnc / 100)⟩

/-- `plmnId_tbcd2MccMnc`: MCC and MNC. -/
def plmnIdTbcd2MccMnc (p : PLMN) : Nat × Nat :=
  let mnc := lowDigit p.tbcd.2.2 * 10 + highDigit p.tbcd.2.2
  (highDigit p.tbcd.1 * 10 + lowDigit p.tbcd.1 * 100 + lowDigit p.tbcd.2.1,
    if highDigit p.tbcd.2.1 ≠ 0xF then mnc + highDigit p.tbcd.2.1 * 100 else mnc)

/-- `globaleNB_getMCC`. -/
def globaleNBGetMCC (gid : MMEGlobaleNBid) : Nat :=
  lowDigit gid.plmn.tbcd.1 * 100 + highDigit gid.plmn.tbcd.1 * 10 + lowDigit gid.plmn.tbcd.2.1

/-- `globaleNB_getMNC`. -/
def globaleNBGetMNC (gid : MMEGlobaleNBid) : Nat :=
  if highDigit gid.plmn.tbcd.2.1 = 0xF then lowDigit gid.plmn.tbcd.2.2 * 10 + highDigit gid.plmn.tbcd.2.2
  else highDigit gid.plmn.tbcd.2.1 * 100 + lowDigit gid.plmn.tbcd.2.2 * 10 + highDigit gid.plmn.tbcd.2.2

/-- A digit of a string. -/
def digitChar (n : Nat) : UInt8 := 0x30 + UInt8.ofNat n

/-- `plmn_FillPLMNFromTBCD`: the seven octets of the string. -/
def plmnFillPLMNFromTBCD (p : PLMN) : List UInt8 :=
  [digitChar (lowDigit p.tbcd.1), digitChar (highDigit p.tbcd.1), digitChar (lowDigit p.tbcd.2.1)] ++
    if highDigit p.tbcd.2.1 = 0xF then [digitChar (lowDigit p.tbcd.2.2), digitChar (highDigit p.tbcd.2.2), 0, 0]
    else [digitChar (highDigit p.tbcd.2.1), digitChar (lowDigit p.tbcd.2.2), digitChar (highDigit p.tbcd.2.2), 0]

/-- The number that a string of digits denotes, after the digits of `n`; the string ends at a zero octet. -/
def numberFrom (n : Nat) : List UInt8 → Nat
  | [] => n
  | ch :: text => if ch = 0 then n else numberFrom (n * 10 + (ch.toNat - 0x30)) text

/-- The octets of a PLMN and the four ways back. -/
structure PLMNCoded (mcc mnc : Nat) : Prop where
  octets : plmnIdMccMnc2tbcd mcc mnc = plmnFillFromMCCMNCs mcc mnc
  identity : plmnIdTbcd2MccMnc (plmnIdMccMnc2tbcd mcc mnc) = (mcc, mnc)
  globaleNB : ∀ gid : MMEGlobaleNBid, gid.plmn = plmnFillFromMCCMNCs mcc mnc →
    globaleNBGetMCC gid = mcc ∧ globaleNBGetMNC gid = mnc
  text : numberFrom 0 ((plmnFillPLMNFromTBCD (plmnFillFromMCCMNCs mcc mnc)).take 3) = mcc ∧
    numberFrom 0 ((plmnFillPLMNFromTBCD (plmnFillFromMCCMNCs mcc mnc)).drop 3) = mnc

/-! What the readers read, from any three octets. -/

namespace PLMN

def mcc (p : PLMN) : Nat := lowDigit p.tbcd.1 * 100 + highDigit p.tbcd.1 * 10 + lowDigit p.tbcd.2.1

def mnc (p : PLMN) : Nat :=
  (if highDigit p.tbcd.2.1 = 0xF then 0 else highDigit p.tbcd.2.1) * 100 + lowDigit p.tbcd.2.2 * 10 +
    highDigit p.tbcd.2.2

end PLMN

theorem lowDigit_lt (octet : UInt8) : lowDigit octet < 16 := Nat.lt_succ_of_le Nat.and_le_right

theorem highDigit_lt (octet : UInt8) : highDigit octet < 16 := by
  have h : octet.toNat &&& 240 ≤ 240 := Nat.and_le_right
  simp only [highDigit, UInt8.toNat_shiftRight, Nat.shiftRight_eq_div_pow]
  exact Nat.div_lt_of_lt_mul (Nat.lt_of_le_of_lt h (by decide))

theorem digitChar_eq : ∀ n < 16, digitChar n ≠ 0 ∧ (digitChar n).toNat - 0x30 = n := by
  decide

theorem numberFrom_digitChar {d : Nat} (hd : d < 16) (n : Nat) (text : List UInt8) :
    numberFrom n (digitChar d :: text) = numberFrom (n * 10 + d) text := by
  obtain ⟨hne, hvalue⟩ := digitChar_eq d hd
  rw [numberFrom, if_neg hne, hvalue]

theorem numberFrom_zero (n : Nat) (text : List UInt8) : numberFrom n (0 :: text) = n := if_pos rfl

theorem plmnIdTbcd2MccMnc_eq (p : PLMN) : plmnIdTbcd2MccMnc p = (p.mcc, p.mnc) := by
  simp only [plmnIdTbcd2MccMnc, PLMN.mcc, PLMN.mnc, Prod.mk.injEq]
  constructor
  · omega
  · by_cases h : highDigit p.tbcd.2.1 = 0xF
    · rw [if_pos h, if_neg (not_not.mpr h)]
      omega
    · rw [if_neg h, if_pos h]
      omega

theorem globaleNBGetMNC_eq (gid : MMEGlobaleNBid) : globaleNBGetMNC gid = gid.plmn.mnc := by
  simp only [globaleNBGetMNC, PLMN.mnc]
  split <;> omega

theorem numberFrom_plmnFillPLMNFromTBCD (p : PLMN) : numberFrom 0 ((plmnFillPLMNFromTBCD p).take 3) = p.mcc ∧
    numberFrom 0 ((plmnFillPLMNFromTBCD p).drop 3) = p.mnc := by
  have hlow := fun octet => numberFrom_digitChar (lowDigit_lt octet)
  have hhigh := fun octet => numberFrom_digitChar (highDigit_lt octet)
  simp only [plmnFillPLMNFromTBCD, List.cons_append, List.nil_append, List.take_succ_cons, List.take_zero,
    List.drop_succ_cons, List.drop_zero, PLMN.mcc, PLMN.mnc]
  constructor
  · rw [hlow, hhigh, hlow, numberFrom]
    omega
  · split
    · rw [hlow, hhigh, numberFrom_zero]
      omega
    · rw [hhigh, hlow, hhigh, numberFrom_zero]
      omega

theorem mcc_plmnFillFromMCCMNCs {mcc mnc : Nat} (hmcc : mcc ≤ 999) : (plmnFillFromMCCMNCs mcc mnc).mcc = mcc := by
  unfold plmnFillFromMCCMNCs PLMN.mcc
  split
  · rw [lowDigit_tbcdOctet (by omega) (by omega), highDigit_tbcdOctet (by omega) (by omega),
      lowDigit_tbcdOctet (by omega) (by omega)]
    omega
  · rw [lowDigit_tbcdOctet (by omega) (by omega), highDigit_tbcdOctet (by omega) (by omega),
      lowDigit_tbcdOctet (by omega) (by omega)]
    omega

/-- The third digit of the network code is read as the first. -/
theorem mnc_plmnFillFromMCCMNCs {mcc mnc : Nat} (hmnc : mnc ≤ 999) :
    (plmnFillFromMCCMNCs mcc mnc).mnc =
      if mnc < 100 then mnc else mnc % 10 * 100 + mnc / 100 * 10 + mnc % 100 / 10 := by
  unfold plmnFillFromMCCMNCs PLMN.mnc
  split
  · rw [highDigit_tbcdOctet (by omega) (by omega), lowDigit_tbcdOctet (by omega) (by omega),
      highDigit_tbcdOctet (by omega) (by omega), if_pos rfl, if_pos (by omega)]
    omega
  · rw [highDigit_tbcdOctet (by omega) (by omega), lowDigit_tbcdOctet (by omega) (by omega),
      highDigit_tbcdOctet (by omega) (by omega), if_neg (by omega), if_neg (by omega)]

/-- **PLMN codes.** For all codes of up to three digits, the two encoders agree and all decoders give the codes back
if the network code has at most two digits or three equal ones, and only then. -/
theorem plmn_coded_iff {mcc mnc : Nat} (hmcc : mcc ≤ 999) (hmnc : mnc ≤ 999) :
    PLMNCoded mcc mnc ↔ mnc < 100 ∨ mnc % 111 = 0 := by
  have hiff : PLMNCoded mcc mnc ↔ (plmnFillFromMCCMNCs mcc mnc).mnc = mnc := by
    constructor
    · exact fun h => (globaleNBGetMNC_eq ⟨_, true, 0⟩).symm.trans (h.globaleNB _ rfl).2
    · intro h
      have hread : ((plmnFillFromMCCMNCs mcc mnc).mcc, (plmnFillFromMCCMNCs mcc mnc).mnc) = (mcc, mnc) := by
        rw [mcc_plmnFillFromMCCMNCs hmcc, h]
      have htext := numberFrom_plmnFillPLMNFromTBCD (plmnFillFromMCCMNCs mcc mnc)
      rw [mcc_plmnFillFromMCCMNCs hmcc, h] at htext
      refine ⟨rfl, (plmnIdTbcd2MccMnc_eq _).trans hread, ?_, htext⟩
      rintro ⟨p, isMacro, id⟩ rfl
      exact ⟨mcc_plmnFillFromMCCMNCs hmcc, (globaleNBGetMNC_eq _).trans h⟩
  rw [hiff, mnc_plmnFillFromMCCMNCs hmnc]
  split
  · exact iff_of_true rfl (.inl ‹_›)
  · have hturned : ∀ n ≤ 999, n % 10 * 100 + n / 100 * 10 + n % 100 / 10 = n ↔ n % 111 = 0 := by decide +kernel
    rw [hturned mnc hmnc, or_iff_right ‹_›]

theorem plmn_coded_two_digits : PLMNCoded 244 5 := (plmn_coded_iff (by decide) (by decide)).mpr (.inl (by decide))

/-- The codes 310 and 410 are read as 310 and 041. -/
theorem not_plmn_coded : plmnIdTbcd2MccMnc (plmnIdMccMnc2tbcd 310 410) = (310, 41) ∧
    numberFrom 0 ((plmnFillPLMNFromTBCD (plmnFillFromMCCMNCs 310 410)).drop 3) = 41 ∧ ¬ PLMNCoded 310 410 := by
  refine ⟨by decide, by decide, fun h => ?_⟩
  cases h.identity

/-! ## IMSI -/

/-- The loop of `dec2tbcd` that fills the first `i` octets from the back. -/
def dec2tbcdLoop : Nat → Nat → List UInt8 → List UInt8
  | 0, _, bcd => bcd
  | i + 1, imsi64, bcd =>
    let aux := imsi64 % 100
    dec2tbcdLoop i (imsi64 / 100) (UInt8.ofNat ((aux % 10) <<< 4 + aux / 10) :: bcd)

/-- `dec2tbcd`. -/
def dec2tbcd (dec : UInt64) : List UInt8 :=
  dec2tbcdLoop 7 (dec.toNat / 10) [UInt8.ofNat (dec.toNat % 10 &&& 0xF0)]

/-- One round of `tbcd2dec`. -/
def tbcd2decStep (decimal : UInt64) (bcd : UInt8) : UInt64 :=
  if bcd &&& 0xF0 ≠ 0xF0 then
    decimal * (100 : UInt64) + UInt8.toUInt64 (bcd &&& 0x0F) * (10 : UInt64) + UInt8.toUInt64 (bcd >>> 4 &&& 0x0F)
  else decimal * (10 : UInt64) + (bcd &&& 0x0F).toUInt64

/-- `tbcd2dec`, which copies the octets into a variable of 64 bits. -/
def tbcd2dec (tbcd : List UInt8) : Outcome UInt64 :=
  if 8 < tbcd.length then .error .overflow else .ok (tbcd.foldl tbcd2decStep 0)

/-- The element of a Create Session Request with the IMSI of the UE. -/
def createSessionIMSI (c : EMMCtx) : GtpIE := ⟨1, 0, dec2tbcd c.imsi⟩

/-- The halves of the octets in their order. -/
def tbcdDigits (l : List UInt8) : List Nat := l.flatMap fun octet => [lowDigit octet, highDigit octet]

/-- The last `k` decimal digits of a number, in their order. -/
def decimalDigits : Nat → Nat → List Nat
  | 0, _ => []
  | k + 1, n => decimalDigits k (n / 10) ++ [n % 10]

theorem length_decimalDigits (k n : Nat) : (decimalDigits k n).length = k := by
  induction k generalizing n with
  | zero => rfl
  | succ k ih => simp [decimalDigits, ih]

theorem dec2tbcd_octet {aux : Nat} (h : aux < 100) :
    UInt8.ofNat ((aux % 10) <<< 4 + aux / 10) = tbcdOctet (aux % 10) (aux / 10) := by
  rw [tbcdOctet, Nat.shiftLeft_add_eq_or_of_lt (by omega)]

theorem tbcdDigits_dec2tbcdLoop (k n : Nat) (bcd : List UInt8) :
    tbcdDigits (dec2tbcdLoop k n bcd) = decimalDigits (2 * k) n ++ tbcdDigits bcd := by
  induction k generalizing n bcd with
  | zero => rfl
  | succ k ih =>
    have hhigh : n % 100 / 10 = n / 10 % 10 := by omega
    have hlow : n % 100 % 10 = n % 10 := by omega
    rw [dec2tbcdLoop, ih, dec2tbcd_octet (Nat.mod_lt _ (by decide)), tbcdDigits, List.flatMap_cons,
      lowDigit_tbcdOctet (by omega) (by omega), highDigit_tbcdOctet (by omega) (by omega), hhigh]
    simp [decimalDigits, Nat.mul_add, Nat.div_div_eq_div_mul, tbcdDigits]

theorem tbcdDigits_dec2tbcd (dec : UInt64) :
    tbcdDigits (dec2tbcd dec) = decimalDigits 14 (dec.toNat / 10) ++ [0, 0] := by
  have hlast : ∀ d < 10, tbcdDigits [UInt8.ofNat (d &&& 0xF0)] = [0, 0] := by decide
  rw [dec2tbcd, tbcdDigits_dec2tbcdLoop, hlast _ (Nat.mod_lt _ (by decide))]

theorem tbcd2decStep_octet {n aux : Nat} (h : aux < 100) :
    tbcd2decStep (UInt64.ofNat n) (UInt8.ofNat ((aux % 10) <<< 4 + aux / 10)) = UInt64.ofNat (n * 100 + aux) := by
  have hall : ∀ aux < 100, UInt8.ofNat ((aux % 10) <<< 4 + aux / 10) &&& 0xF0 ≠ 0xF0 ∧
      UInt8.toUInt64 (UInt8.ofNat ((aux % 10) <<< 4 + aux / 10) &&& 0x0F) * (10 : UInt64) +
        UInt8.toUInt64 (UInt8.ofNat ((aux % 10) <<< 4 + aux / 10) >>> 4 &&& 0x0F) = UInt64.ofNat aux := by
    decide +kernel
  obtain ⟨hne, hvalue⟩ := hall aux h
  rw [tbcd2decStep, if_pos hne, UInt64.add_assoc, hvalue, UInt64.ofNat_add, UInt64.ofNat_mul]
  rfl

theorem foldl_dec2tbcdLoop (k m n : Nat) (bcd : List UInt8) :
    (dec2tbcdLoop k m bcd).foldl tbcd2decStep (UInt64.ofNat n) =
      bcd.foldl tbcd2decStep (UInt64.ofNat (n * 100 ^ k + m % 100 ^ k)) := by
  induction k generalizing m bcd with
  | zero => simp [dec2tbcdLoop, Nat.mod_one]
  | succ k ih =>
    have hsplit : (n * 100 ^ k + m / 100 % 100 ^ k) * 100 + m % 100 = n * 100 ^ (k + 1) + m % 100 ^ (k + 1) := by
      have hmod : m % 100 ^ (k + 1) = m % 100 + 100 * (m / 100 % 100 ^ k) := by
        rw [Nat.pow_succ, Nat.mul_comm, Nat.mod_mul]
      rw [hmod, Nat.pow_succ, ← Nat.mul_assoc]
      omega
    rw [dec2tbcdLoop, ih, List.foldl_cons, tbcd2decStep_octet (Nat.mod_lt _ (by decide)), hsplit]

theorem length_dec2tbcdLoop (k n : Nat) (bcd : List UInt8) : (dec2tbcdLoop k n bcd).length = k + bcd.length := by
  induction k generalizing n bcd with
  | zero => simp [dec2tbcdLoop]
  | succ k ih =>
    rw [dec2tbcdLoop, ih, List.length_cons]
    omega

/-- The last digit is lost: 00 is read. -/
theorem tbcd2dec_dec2tbcd {dec : UInt64} (h : dec.toNat < 10 ^ 15) :
    tbcd2dec (dec2tbcd dec) = .ok (UInt64.ofNat (dec.toNat / 10 * 100)) := by
  have hlast : ∀ d < 10, UInt8.ofNat (d &&& 0xF0) = UInt8.ofNat ((0 % 10) <<< 4 + 0 / 10) := by decide
  have hdigits : dec.toNat / 10 % 100 ^ 7 = dec.toNat / 10 := Nat.mod_eq_of_lt (by omega)
  have hlength : ¬ 8 < (dec2tbcd dec).length := by rw [dec2tbcd, length_dec2tbcdLoop]; simp
  rw [tbcd2dec, if_neg hlength, dec2tbcd, show (0 : UInt64) = UInt64.ofNat 0 from rfl, foldl_dec2tbcdLoop, hdigits,
    hlast _ (Nat.mod_lt _ (by decide)), List.foldl_cons, tbcd2decStep_octet (by decide)]
  simp

/-- **The IMSI in a Create Session Request.** For every IMSI of 15 digits, the element has 8 octets; the first 14 halves
are the first 14 digits, the next half is the last digit if it is zero, and the filler is never there; and the IMSI
is read back only if it is zero. -/
theorem createSessionIMSI_iff {c : EMMCtx} (h : c.imsi.toNat < 10 ^ 15) :
    (createSessionIMSI c).v.length = 8 ∧
      (∀ i < 16, (tbcdDigits (createSessionIMSI c).v)[i]? = (decimalDigits 15 c.imsi.toNat ++ [0xF])[i]? ↔
        i < 14 ∨ (i = 14 ∧ c.imsi.toNat % 10 = 0)) ∧
      (tbcd2dec (createSessionIMSI c).v = .ok c.imsi ↔ c.imsi = 0) := by
  refine ⟨by simp [createSessionIMSI, dec2tbcd, length_dec2tbcdLoop], fun i hi => ?_, ?_⟩
  · have hlen := length_decimalDigits 14 (c.imsi.toNat / 10)
    have hdigits : decimalDigits 15 c.imsi.toNat = decimalDigits 14 (c.imsi.toNat / 10) ++ [c.imsi.toNat % 10] := rfl
    rw [createSessionIMSI, tbcdDigits_dec2tbcd, hdigits, List.append_assoc]
    rcases Nat.lt_or_ge i 14 with hlt | hge
    · rw [List.getElem?_append_left (by omega), List.getElem?_append_left (by omega)]
      exact iff_of_true rfl (.inl hlt)
    · rw [List.getElem?_append_right (by omega), List.getElem?_append_right (by omega), hlen]
      obtain rfl | rfl : i = 14 ∨ i = 15 := by omega
      · simp [eq_comm]
      · simp
  · have hlt : c.imsi.toNat / 10 * 100 < 2 ^ 64 := by omega
    rw [createSessionIMSI, tbcd2dec_dec2tbcd h, Except.ok.injEq, ← UInt64.toNat_inj, ← UInt64.toNat_inj,
      UInt64.toNat_ofNat_of_lt' hlt]
    show _ ↔ c.imsi.toNat = 0
    omega

/-- A UE with an IMSI. -/
def sampleUE (imsi : UInt64) : EMMCtx := { emmInit 0 1 ⟨0, 1, [], [], 0, 0⟩ with imsi }

theorem createSessionIMSI_last_zero : (tbcdDigits (createSessionIMSI (sampleUE 244010000001230)).v)[14]? =
    (decimalDigits 15 244010000001230 ++ [0xF])[14]? :=
  ((createSessionIMSI_iff (by decide)).2.1 14 (by decide)).mpr (.inr (by decide))

theorem not_createSessionIMSI :
    (createSessionIMSI (sampleUE 123456789012345)).v = [0x21, 0x43, 0x65, 0x87, 0x09, 0x21, 0x43, 0x00] ∧
      tbcd2dec (createSessionIMSI (sampleUE 123456789012345)).v = .ok 1234567890123400 := by
  decide +kernel

end AaltoMME
