import Mathlib.Data.Nat.Digits.Defs
import AaltoMME.S1.ECMSession

/-!
# The digits of an IMSI

An IMSI is a string of decimal digits.  TS 24.008 puts the first digit into the high half of the first octet, next to
the parity and the type, and the others in pairs into the octets that follow, low half first; if the last octet has one
digit only, its high half is filled with ones.  The loop that reads them is the same in four functions.
-/

namespace AaltoMME

open Base NAS

/-! ## Encoding -/

/-- The octets after the first one. -/
def digitPairs : List (Fin 10) → List UInt8
  | [] => []
  | [a] => [0xF0 ||| UInt8.ofNat a]
  | a :: b :: ds => (UInt8.ofNat b <<< 4 ||| UInt8.ofNat a) :: digitPairs ds

/-- The first octet: a digit, the parity and the type 1. -/
def firstOctet (d : Fin 10) (odd : Bool) : UInt8 := UInt8.ofNat d <<< 4 ||| (if odd then 8 else 0) ||| 1

def encodeIMSI : List (Fin 10) → List UInt8
  | [] => []
  | d :: ds => firstOctet d (ds.length % 2 = 0) :: digitPairs ds

/-- The number that the digits denote, the most significant digit first. -/
def decimal (ds : List (Fin 10)) : Nat := Nat.ofDigits 10 (ds.reverse.map Fin.val)

theorem firstOctet_type (d : Fin 10) (odd : Bool) : firstOctet d odd &&& 0x07 = 1 := by
  revert d odd
  decide

theorem firstOctet_digit (d : Fin 10) (odd : Bool) : firstOctet d odd >>> 4 = UInt8.ofNat d := by
  revert d odd
  decide

theorem firstOctet_parity (d : Fin 10) (odd : Bool) : (firstOctet d odd >>> 3) &&& 1 = 1 ↔ odd = true := by
  revert d odd
  decide

theorem pair_low (a b : Fin 10) : (UInt8.ofNat b <<< 4 ||| UInt8.ofNat a) &&& 0x0F = UInt8.ofNat a := by
  revert a b
  decide

theorem pair_high (a b : Fin 10) : (UInt8.ofNat b <<< 4 ||| UInt8.ofNat a) >>> 4 = UInt8.ofNat b := by
  revert a b
  decide

theorem filled_low (a : Fin 10) : (0xF0 ||| UInt8.ofNat a) &&& 0x0F = UInt8.ofNat a := by
  revert a
  decide

/-! ## The loop -/

def addDigit (m : UInt64) (d : UInt8) : UInt64 := m * 10 + d.toUInt64

def digitLoop (v : Mem) (n : Nat) (m : UInt64) : UInt64 :=
  (List.range n).foldl (fun m i => addDigit (addDigit m (v i >>> 4)) (v (i + 1) &&& 0x0F)) m

theorem imsiOfMobileId_eq (v : Mem) {l : UInt8} (hl : l ≠ 0) :
    imsiOfMobileId v l = .ok (if (v 0 >>> 3) &&& 1 = 1
      then addDigit (digitLoop v (l.toNat - 1) 0) (v (l.toNat - 1) >>> 4) else digitLoop v (l.toNat - 1) 0) := by
  rw [imsiOfMobileId, if_neg hl]
  rfl

theorem digitLoop_succ (v : Mem) (n : Nat) (m : UInt64) :
    digitLoop v (n + 1) m = digitLoop (v.shift 1) n (addDigit (addDigit m (v 0 >>> 4)) (v 1 &&& 0x0F)) := by
  rw [digitLoop, List.range_succ_eq_map, List.foldl_cons, List.foldl_map]
  simp only [digitLoop, Mem.shift_apply, Nat.add_comm 1]

/-- The digits read into a number of 64 bits. -/
def readDigits (m : UInt64) (ds : List (Fin 10)) : UInt64 := ds.foldl (fun m d => addDigit m (UInt8.ofNat d.val)) m

/-- The loop reads the digits in pairs; the octet that it ends with has one more digit if their number is odd.  The
induction takes a pair of digits at a time. -/
theorem digitLoop_eq (ds : List (Fin 10)) (v : Mem) (d : Fin 10) (m : UInt64) (hd : v 0 >>> 4 = UInt8.ofNat d)
    (hv : v.read 1 (digitPairs ds).length = digitPairs ds) :
    (if ds.length % 2 = 0 then addDigit (digitLoop v (digitPairs ds).length m) (v (digitPairs ds).length >>> 4)
      else digitLoop v (digitPairs ds).length m) = readDigits m (d :: ds) := by
  induction ds using digitPairs.induct generalizing v d m with
  | case1 =>
    show addDigit m (v 0 >>> 4) = addDigit m (UInt8.ofNat d)
    rw [hd]
  | case2 a =>
    have hlow : v 1 = 0xF0 ||| UInt8.ofNat a := (List.cons.inj hv).1
    show addDigit (addDigit m (v 0 >>> 4)) (v 1 &&& 0x0F) = addDigit (addDigit m (UInt8.ofNat d)) (UInt8.ofNat a)
    rw [hd, hlow, filled_low]
  | case3 a b ds ih =>
    rw [digitPairs, List.length_cons, Mem.read, List.range_succ_eq_map, List.map_cons, List.map_map] at hv
    obtain ⟨hfirst, hrest⟩ := List.cons.inj hv
    have hb : v.shift 1 0 >>> 4 = UInt8.ofNat b := by
      rw [Mem.shift_apply, hfirst, pair_high]
    have hread : (v.shift 1).read 1 (digitPairs ds).length = digitPairs ds := by
      refine Eq.trans ?_ hrest
      refine List.map_congr_left fun i _ => ?_
      simp only [Mem.shift_apply, Function.comp_apply, Nat.succ_eq_add_one, Nat.add_comm i 1]
    have hparity : (a :: b :: ds).length % 2 = ds.length % 2 := by
      simp only [List.length_cons]
      omega
    rw [hparity, digitPairs, List.length_cons, digitLoop_succ, hd, hfirst, pair_low]
    have hlast : v ((digitPairs ds).length + 1) = v.shift 1 (digitPairs ds).length := by
      rw [Mem.shift_apply, Nat.add_comm]
    rw [hlast]
    exact ih (v.shift 1) b _ hb hread

theorem readDigits_eq (m : Nat) (ds : List (Fin 10)) :
    readDigits (UInt64.ofNat m) ds = UInt64.ofNat (ds.foldl (fun m d => m * 10 + d.val) m) := by
  induction ds generalizing m with
  | nil => rfl
  | cons d ds ih =>
    have hd : (UInt8.ofNat d.val).toUInt64 = UInt64.ofNat d.val := by
      revert d
      decide
    rw [List.foldl_cons, ← ih, readDigits, List.foldl_cons, addDigit, hd, UInt64.ofNat_add, UInt64.ofNat_mul]
    rfl

theorem foldl_eq_ofDigits (m : Nat) (ds : List (Fin 10)) :
    ds.foldl (fun m d => m * 10 + d.val) m = Nat.ofDigits 10 (ds.reverse.map Fin.val) + 10 ^ ds.length * m := by
  induction ds generalizing m with
  | nil => simp
  | cons d ds ih =>
    rw [List.foldl_cons, ih, List.reverse_cons, List.map_append, Nat.ofDigits_append]
    simp only [List.map_cons, List.map_nil, Nat.ofDigits_singleton, List.length_map, List.length_reverse,
      List.length_cons]
    ring

theorem decimal_lt (ds : List (Fin 10)) : decimal ds < 10 ^ ds.length := by
  have h := Nat.ofDigits_lt_base_pow_length (b := 10) (l := ds.reverse.map Fin.val) (by decide) fun x hx => by
    obtain ⟨d, -, rfl⟩ := List.mem_map.mp hx
    exact d.isLt
  simpa [decimal] using h

/-! ## The bounds of the loop -/

/-- An octet of an identity of length `l`. -/
def octetBelow (v : Mem) (l i : Nat) : Outcome UInt8 := if i < l then .ok (v i) else .error .overread

/-- The loop, with every access checked. -/
def checkedImsi (v : Mem) (l : UInt8) : Outcome UInt64 := do
  let m ← (List.range (l.toNat - 1)).foldlM (fun m i => do
    let a ← octetBelow v l.toNat i
    let b ← octetBelow v l.toNat (i + 1)
    pure (addDigit (addDigit m (a >>> 4)) (b &&& 0x0F))) 0
  let first ← octetBelow v l.toNat 0
  if (first >>> 3) &&& 1 = 1 then
    let last ← octetBelow v l.toNat (l.toNat - 1)
    pure (addDigit m (last >>> 4))
  else pure m

theorem octetBelow_eq (v : Mem) {l i : Nat} (h : i < l) : octetBelow v l i = .ok (v i) := if_pos h

theorem checkedLoop_eq (v : Mem) (l : Nat) (is : List Nat) (m : UInt64) (h : ∀ i ∈ is, i + 1 < l) :
    is.foldlM (fun m i => do
      let a ← octetBelow v l i
      let b ← octetBelow v l (i + 1)
      pure (addDigit (addDigit m (a >>> 4)) (b &&& 0x0F))) m =
    (.ok (is.foldl (fun m i => addDigit (addDigit m (v i >>> 4)) (v (i + 1) &&& 0x0F)) m) : Outcome UInt64) := by
  induction is generalizing m with
  | nil => rfl
  | cons i is ih =>
    obtain ⟨hi, his⟩ := List.forall_mem_cons.mp h
    rw [List.foldlM_cons, octetBelow_eq v (Nat.lt_of_succ_lt hi), octetBelow_eq v hi]
    exact ih _ his

theorem checkedImsi_eq (v : Mem) {l : UInt8} (hl : l ≠ 0) : checkedImsi v l = imsiOfMobileId v l := by
  have hpos : 0 < l.toNat := Nat.pos_of_ne_zero fun h => hl (UInt8.toNat_inj.mp h)
  have hin : ∀ i ∈ List.range (l.toNat - 1), i + 1 < l.toNat := by
    intro i hi
    have := List.mem_range.mp hi
    omega
  rw [imsiOfMobileId_eq v hl, checkedImsi, checkedLoop_eq v _ _ _ hin, ok_bind, octetBelow_eq v hpos, ok_bind,
    octetBelow_eq v (Nat.sub_lt hpos Nat.one_pos)]
  split <;> rfl

/-! ## The four functions -/

/-- A message holds an IMSI with its length at `o`. -/
def HoldsIMSI (msg : GenericNASMsg) (o : Nat) (ds : List (Fin 10)) : Prop :=
  (msg o).toNat = (encodeIMSI ds).length ∧ msg.read (o + 1) (encodeIMSI ds).length = encodeIMSI ds

/-- What the loop of `processDetachReq` computes; the function compares it with the IMSI of the context and logs. -/
def detachMobid (msg : GenericNASMsg) : Outcome UInt64 := imsiOfMobileId (msg.shift 6) (msg 5)

variable {msg : GenericNASMsg} {o : Nat} {ds : List (Fin 10)}

theorem HoldsIMSI.imsi (h : HoldsIMSI msg o ds) (hpos : 1 ≤ ds.length) :
    mobileIdType (msg.shift (o + 1)) = 1 ∧
      checkedImsi (msg.shift (o + 1)) (msg o) = .ok (UInt64.ofNat (decimal ds)) ∧
      imsiOfMobileId (msg.shift (o + 1)) (msg o) = .ok (UInt64.ofNat (decimal ds)) := by
  obtain ⟨hlen, hread⟩ := h
  cases ds with
  | nil => cases hpos
  | cons d ds =>
    have hl : msg o ≠ 0 := by
      intro hzero
      rw [hzero] at hlen
      cases hlen
    rw [encodeIMSI, List.length_cons] at hlen
    rw [encodeIMSI, List.length_cons, Mem.read, List.range_succ_eq_map, List.map_cons, List.map_map] at hread
    obtain ⟨hfirst, hrest⟩ := List.cons.inj hread
    have hfirst : msg.shift (o + 1) 0 = firstOctet d (ds.length % 2 = 0) := hfirst
    have hrest : (msg.shift (o + 1)).read 1 (digitPairs ds).length = digitPairs ds := by
      refine Eq.trans (List.map_congr_left fun i _ => ?_) hrest
      simp only [Mem.shift_apply, Function.comp_apply, Nat.succ_eq_add_one, Nat.add_comm i 1]
    have hloop := digitLoop_eq ds (msg.shift (o + 1)) d 0 (by rw [hfirst, firstOctet_digit]) hrest
    have hvalue : readDigits 0 (d :: ds) = UInt64.ofNat (decimal (d :: ds)) := by
      have hfold := readDigits_eq 0 (d :: ds)
      rw [foldl_eq_ofDigits] at hfold
      exact hfold
    have himsi : imsiOfMobileId (msg.shift (o + 1)) (msg o) = .ok (UInt64.ofNat (decimal (d :: ds))) := by
      rw [imsiOfMobileId_eq _ hl, hlen, Nat.add_sub_cancel, ← hvalue, ← hloop]
      simp only [hfirst, firstOctet_parity, decide_eq_true_eq]
    refine ⟨?_, ?_, himsi⟩
    · rw [mobileIdType, hfirst, firstOctet_type]
    · rw [checkedImsi_eq _ hl, himsi]

theorem imsi_attachCapabilities (c : EMMCtx) (msg : GenericNASMsg) :
    Post (c.attachCapabilities msg) fun d => d.imsi = c.imsi := by
  refine .bind (Q := fun d => d.imsi = c.imsi) (.of_bind fun _ => .ok rfl) fun d hd => ?_
  refine .bind (Q := fun e => e.imsi = c.imsi) ?_ fun e he => .ok ?_
  · unfold EMMCtx.setMsNetCap
    split
    · exact .ok hd
    · exact .of_bind fun _ => .ok hd
  · unfold EMMCtx.setAdditionalUpdateType
    split
    · exact he
    · exact he

/-- The four functions read the number that the digits of the IMSI denote, and the octets of the identity only. -/
theorem imsi_decoded (hpos : 1 ≤ ds.length) (hle : ds.length ≤ 18) :
    ∃ n : UInt64, n.toNat = decimal ds ∧
      (∀ (c : EMMCtx) (msg : GenericNASMsg), HoldsIMSI msg 5 ds →
        checkedImsi (msg.shift 6) (msg 5) = .ok n ∧ c.attachMobileId msg = .ok { c with imsi := n } ∧
          Post (c.processAttach msg) fun d => d.imsi = n) ∧
      (∀ (junk : UInt64) (buf : Mem) (size : UInt64) (msg : GenericNASMsg), readableMsg buf size = .ok (some msg) →
        msg.emmMessageType = attachRequest → HoldsIMSI msg 5 ds →
          checkedImsi (msg.shift 6) (msg 5) = .ok n ∧ emmGetIMSIfromAttach junk buf size = .ok n) ∧
      (∀ (c : EMMCtx) (msg : GenericNASMsg), HoldsIMSI msg 5 ds →
        checkedImsi (msg.shift 6) (msg 5) = .ok n ∧ detachMobid msg = .ok n ∧
          c.processDetachReq msg = .ok { c with msg.detachType := msg 3 &&& 0x0F, msg.ksi := msg 4 >>> 4 }) ∧
      (∀ (P : Prims) (env : Env) (c : EMMCtx) (msg : GenericNASMsg), HoldsIMSI msg 3 ds →
        checkedImsi (msg.shift 4) (msg 3) = .ok n ∧
          c.processIdentityRsp P env msg = EMMCtx.emmCtxNewGUTI P env { c with imsi := n }) := by
  have hlt : decimal ds < 2 ^ 64 := by
    refine lt_of_lt_of_le (decimal_lt ds) ?_
    exact le_trans (Nat.pow_le_pow_right (by decide) hle) (by decide)
  refine ⟨UInt64.ofNat (decimal ds), ?_, fun c msg h => ?_, fun junk buf size msg hmsg htype h => ?_, fun c msg h => ?_,
    fun P env c msg h => ?_⟩
  · exact Nat.mod_eq_of_lt hlt
  · obtain ⟨htype, hchecked, himsi⟩ := h.imsi hpos
    have hid : ∀ c : EMMCtx, c.attachMobileId msg = .ok { c with imsi := UInt64.ofNat (decimal ds) } := by
      intro c
      rw [EMMCtx.attachMobileId, if_pos htype, himsi]
      rfl
    refine ⟨hchecked, hid c, ?_⟩
    rw [EMMCtx.processAttach, hid]
    exact imsi_attachCapabilities _ msg
  · obtain ⟨hid, hchecked, himsi⟩ := h.imsi hpos
    refine ⟨hchecked, ?_⟩
    rw [emmGetIMSIfromAttach, hmsg, ok_bind]
    dsimp only
    rw [if_pos (by simp [htype, hid])]
    exact himsi
  · obtain ⟨htype, hchecked, himsi⟩ := h.imsi hpos
    refine ⟨hchecked, himsi, ?_⟩
    rw [EMMCtx.processDetachReq, if_pos htype, himsi]
    rfl
  · obtain ⟨htype, hchecked, himsi⟩ := h.imsi hpos
    refine ⟨hchecked, ?_⟩
    rw [EMMCtx.processIdentityRsp, if_pos htype, himsi]
    rfl

/-- The IMSI 20893 in a Detach Request: octets 29 80 39. -/
theorem imsi_decoded_five :
    ∃ n : UInt64, n.toNat = 20893 ∧
      detachMobid (Mem.ofList [0x07, 0x45, 0, 0x01, 0, 3, 0x29, 0x80, 0x39]) = .ok n := by
  obtain ⟨n, hn, -, -, hdetach, -⟩ := @imsi_decoded [2, 0, 8, 9, 3] (by decide) (by decide)
  refine ⟨n, hn.trans (by decide), ?_⟩
  exact (hdetach (emmInit 0 0 ⟨0, 1, [], [], 0, 0⟩) _ (by unfold HoldsIMSI; decide)).2.1

/-! ## The identity in a Detach Request -/

namespace EMMCtx

/-- The identity in the request is the one of the context: the IMSI, or all ten octets of the GUTI. -/
def OwnsIdentity (c : EMMCtx) (msg : GenericNASMsg) : Prop :=
  (mobileIdType (msg.shift 6) = 1 ∧ detachMobid msg = .ok c.imsi) ∨
    (mobileIdType (msg.shift 6) = 6 ∧ msg.read 7 10 = c.guti.octets)

/-- The request makes the three states that take it call `esm_detach`. -/
def CallsDetach (c : EMMCtx) (msg : GenericNASMsg) : Prop :=
  ∃ d, c.processDetachReq msg = .ok d ∧ d.ksi = d.msg.ksi

theorem processDetachReq_eq (c : EMMCtx) {msg : GenericNASMsg} (h : ¬ (mobileIdType (msg.shift 6) = 1 ∧ msg 5 = 0)) :
    c.processDetachReq msg = .ok { c with msg.detachType := msg 3 &&& 0x0F, msg.ksi := msg 4 >>> 4 } := by
  by_cases htype : mobileIdType (msg.shift 6) = 1
  · rw [processDetachReq, if_pos htype, imsiOfMobileId, if_neg fun hl => h ⟨htype, hl⟩]
    rfl
  · rw [processDetachReq, if_neg htype]
    rfl

theorem processDetachReq_empty (c : EMMCtx) {msg : GenericNASMsg} (h : mobileIdType (msg.shift 6) = 1 ∧ msg 5 = 0) :
    c.processDetachReq msg = .error .overread := by
  rw [processDetachReq, if_pos h.1, imsiOfMobileId, if_pos h.2]
  rfl

theorem callsDetach_iff {c : EMMCtx} {msg : GenericNASMsg} :
    c.CallsDetach msg ↔ ¬ (mobileIdType (msg.shift 6) = 1 ∧ msg 5 = 0) ∧ c.ksi = msg 4 >>> 4 := by
  by_cases hid : mobileIdType (msg.shift 6) = 1 ∧ msg 5 = 0
  · simp [CallsDetach, processDetachReq_empty c hid, hid]
  · simp [CallsDetach, processDetachReq_eq c hid, hid]

/-- A request with the right key set identifier detaches whatever identity it gives. -/
theorem detach_identity_iff (env : Env) (c : EMMCtx) (msg : GenericNASMsg) :
    ((c.CallsDetach msg → c.OwnsIdentity msg ∧ c.ksi = msg 4 >>> 4) ∧
      (¬ (c.OwnsIdentity msg ∧ c.ksi = msg 4 >>> 4) →
        Post (c.detachRequestCase env msg) fun d => d.esm = c.esm ∧ d.stateName = c.stateName)) ↔
    c.OwnsIdentity msg ∨ c.ksi ≠ msg 4 >>> 4 ∨ (mobileIdType (msg.shift 6) = 1 ∧ msg 5 = 0) := by
  constructor
  · rintro ⟨hcalls, -⟩
    by_contra hno
    simp only [not_or, not_not] at hno
    exact hno.1 (hcalls (callsDetach_iff.mpr ⟨hno.2.2, hno.2.1⟩)).1
  · intro h
    rw [callsDetach_iff]
    refine ⟨fun hcalls => ⟨h.resolve_right ?_, hcalls.2⟩, fun hno => ?_⟩
    · rintro (hksi | hid)
      · exact hksi hcalls.2
      · exact hcalls.1 hid
    by_cases hid : mobileIdType (msg.shift 6) = 1 ∧ msg 5 = 0
    · rw [detachRequestCase, processDetachReq_empty c hid]
      exact .error
    · have hksi : c.ksi ≠ msg 4 >>> 4 := fun heq => by
        rcases h with hown | hne | hid'
        · exact hno ⟨hown, heq⟩
        · exact hne heq
        · exact hid hid'
      rw [detachRequestCase, processDetachReq_eq c hid, ok_bind, if_pos hksi]
      exact .ok ⟨rfl, rfl⟩

/-- The IMSI of another subscriber. -/
theorem not_detach_identity :
    { emmInit 0 0 ⟨0, 1, [], [], 0, 0⟩ with imsi := 20894, ksi := 1 }.CallsDetach
      (Mem.ofList [0x07, 0, 0x45, 0x01, 0x10, 3, 0x29, 0x80, 0x39]) ∧
    ¬ { emmInit 0 0 ⟨0, 1, [], [], 0, 0⟩ with imsi := 20894, ksi := 1 }.OwnsIdentity
      (Mem.ofList [0x07, 0, 0x45, 0x01, 0x10, 3, 0x29, 0x80, 0x39]) := by
  refine ⟨⟨_, rfl, by decide⟩, ?_⟩
  rintro (⟨-, himsi⟩ | ⟨hid, -⟩)
  · cases himsi
  · cases hid

end EMMCtx

end AaltoMME
