import AaltoMME.NAS.Messages
import AaltoMME.NAS.Verifier

/-!
# What `newNASMsg_sec` sends

A message that `newNASMsg_sec` protects is accepted by a handler with the same keys and COUNT and decodes to
the original octets, unless it is too long for the IE writer, which takes lengths of 8 bits.  The COUNTs that
`newNASMsg_sec` uses are fresh only for the downlink, since that is the COUNT it advances whatever the
direction, and only until the 24 bits of a COUNT are used up, since nobody looks at the indication of
`nas_incrementNASCount`.
-/

namespace AaltoMME.NAS

open Base

variable {P : Prims} {h h' : NASHandler} {p : UInt8} {s : SecurityHeaderType} {direction : NASDirection}
  {plain out mac : List UInt8}

/-! ## Round trip -/

theorem and_0xF0_of_low_or (p q : UInt8) : ((p &&& 0x0F) ||| q) &&& 0xF0 = q &&& 0xF0 := by
  refine UInt8.toNat_inj.mp ?_
  have hmask : (0x0F : Nat) &&& 0xF0 = 0 := rfl
  simp only [UInt8.toNat_and, UInt8.toNat_or, UInt8.reduceToNat, Nat.and_or_distrib_right, Nat.and_assoc,
    hmask, Nat.and_zero, Nat.zero_or]

theorem header_securedPdu (h : NASHandler) (p : UInt8) (direction : NASDirection) (plain mac : List UInt8)
    (hs : s.isProtected = true) {size : UInt32} (hsize : 1 ≤ size) :
    ∃ d, nasGetHeader (.ofList (securedPdu h p s direction plain mac)) size = some (s, d) := by
  have hfirst : Mem.ofList (securedPdu h p s direction plain mac) 0 =
      (p &&& (0x0F : UInt8)) ||| (s.octet <<< 4) := rfl
  have hnot : ¬ size < 1 := fun hlt => absurd hsize (UInt32.not_le.mpr hlt)
  refine ⟨((p &&& (0x0F : UInt8)) ||| (s.octet <<< 4)) &&& 0x0f, ?_⟩
  rw [nasGetHeader, if_neg hnot, hfirst, and_0xF0_of_low_or]
  cases s <;> first | rfl | cases hs

theorem securedPdu_of_le (hlen : plain.length ≤ 254) : securedPdu h p s direction plain mac =
    ((p &&& (0x0F : UInt8)) ||| (s.octet <<< 4)) :: (mac ++ (h.nasCount direction).toUInt8 :: plain) := by
  have hmod : (plain.length + 1) % 256 = plain.length + 1 := Nat.mod_eq_of_lt (by omega)
  rw [securedPdu, hmod, List.take_of_length_le (by simp)]

theorem length_securedPdu (hmac : mac.length = 4) :
    (securedPdu h p s direction plain mac).length = 5 + (plain.length + 1) % 256 := by
  simp only [securedPdu, List.length_cons, List.length_append, List.length_take]
  omega

theorem shift_securedPdu (hmac : mac.length = 4) (hlen : plain.length ≤ 254) :
    (Mem.ofList (securedPdu h p s direction plain mac)).shift 6 = .ofList plain := by
  have hnil : mac.drop 5 = [] := List.drop_eq_nil_of_le (by omega)
  rw [Mem.ofList_shift, securedPdu_of_le hlen, List.drop_succ_cons, List.drop_append, hmac, hnil]
  rfl

/-- What `newNASMsg_sec` writes is genuine for every handler with the same algorithm and key. -/
theorem genuine_securedPdu (hP : P.BlockSized) {r : NASHandler} (hi : r.i = h.i) (hk : r.ikey = h.ikey)
    (hs : s.isProtected = true) (hlen : plain.length ≤ 254)
    (hmac : eiaCb P h.i h.ikey (octets32 (h.nasCount direction)) 0 direction.octet
      (Mem.ofList ((h.nasCount direction).toUInt8 :: plain)) ((plain.length + 1) * 8) = .ok mac) :
    GenuineFull P r direction (h.nasCount direction) (.ofList (securedPdu h p s direction plain mac))
      (UInt32.ofNat (securedPdu h p s direction plain mac).length) := by
  have h4 := length_of_eiaCb hP hmac
  have hsize : (UInt32.ofNat (securedPdu h p s direction plain mac).length).toNat = plain.length + 6 := by
    rw [length_securedPdu h4, UInt32.toNat_ofNat_of_lt' (by simp only [UInt32.size]; omega)]
    omega
  have hbody : (securedPdu h p s direction plain mac).drop 5 = (h.nasCount direction).toUInt8 :: plain := by
    rw [securedPdu_of_le hlen, List.drop_succ_cons, ← h4, List.drop_left]
  refine ⟨?_, by omega, by omega, ?_, ?_⟩
  · have hone : 1 ≤ UInt32.ofNat (securedPdu h p s direction plain mac).length :=
      UInt32.le_iff_toNat_le.mpr (by simp only [UInt32.reduceToNat]; omega)
    obtain ⟨d, hd⟩ := header_securedPdu h p direction plain mac hs hone
    exact ⟨s, d, hd, hs⟩
  · have hfive := congrFun (Mem.ofList_shift 5 (securedPdu h p s direction plain mac)) 0
    rw [hbody] at hfive
    exact hfive
  · have hread : (Mem.ofList (securedPdu h p s direction plain mac)).read 1 4 = mac := by
      rw [Mem.ofList_read _ _ _ (by rw [length_securedPdu h4]; omega), securedPdu_of_le hlen,
        List.drop_succ_cons, List.drop_zero, ← h4, List.take_left]
    rw [hi, hk, Mem.ofList_shift, hbody, hsize, hread]
    congr 1

/-- `dec_secNAS` decodes the text of what `newNASMsg_sec` wrote.  Of a message that is only integrity
protected it does not report an error. -/
theorem decSecNAS_securedPdu {r : NASHandler} (hv : r.isValid = true) (he : r.e = .eea0)
    (hs : s = .integrityProtected ∨ s.isCiphered = true) (hmac : mac.length = 4) (hlen : plain.length ≤ 254) :
    decSecNAS r (.ofList (securedPdu h p s direction plain mac))
        (UInt64.ofNat (securedPdu h p s direction plain mac).length) =
      .ok (s = .integrityProtected || (decNAS (.ofList plain) (UInt64.ofNat plain.length)).1,
        (decNAS (.ofList plain) (UInt64.ofNat plain.length)).2) := by
  have hprot : s.isProtected = true := by
    obtain rfl | hc := hs
    · rfl
    · cases s <;> first | rfl | cases hc
  have hsize : (securedPdu h p s direction plain mac).length = plain.length + 6 := by
    rw [length_securedPdu hmac]
    omega
  have htoNat : (UInt64.ofNat (plain.length + 6)).toNat = plain.length + 6 :=
    UInt64.toNat_ofNat_of_lt' (by simp only [UInt64.size]; omega)
  have hplain : UInt64.ofNat (plain.length + 6) - 6 = UInt64.ofNat plain.length := by
    refine UInt64.toNat_inj.mp ?_
    rw [UInt64.toNat_sub, htoNat, UInt64.toNat_ofNat_of_lt' (by simp only [UInt64.size]; omega)]
    simp only [UInt64.reduceToNat]
    omega
  have hone : 1 ≤ (UInt64.ofNat (plain.length + 6)).toUInt32 := by
    rw [UInt32.le_iff_toNat_le, UInt64.toNat_toUInt32]
    simp only [UInt32.reduceToNat]
    omega
  have hsix : ¬ UInt64.ofNat (plain.length + 6) < 6 := by
    rw [UInt64.lt_iff_toNat_lt]
    simp only [UInt64.reduceToNat]
    omega
  obtain ⟨d, hhead⟩ := header_securedPdu h p direction plain mac hprot hone
  rw [hsize, decSecNAS, hhead]
  rw [shift_securedPdu hmac hlen, hplain]
  obtain rfl | hc := hs
  · rfl
  · have hne : s ≠ .integrityProtected := by
      rintro rfl
      cases hc
    simp only [hne, hc, hv, hsix, he, eeaCb, true_or, not_true, Bool.not_true, Bool.false_eq_true, if_false,
      ok_bind, decide_false, Bool.false_or]

/-- A receiver accepts what was sent and gets the text back. -/
def RoundTrips (P : Prims) (r : NASHandler) (s : SecurityHeaderType) (direction : NASDirection)
    (plain out : List UInt8) : Prop :=
  out.length = plain.length + 6 ∧
    ∃ r', nasAuthenticateMsg P r (.ofList out) (UInt32.ofNat out.length) direction = .ok ⟨1, true, r'⟩ ∧
      decSecNAS r' (.ofList out) (UInt64.ofNat out.length) =
        .ok (s = .integrityProtected || (decNAS (.ofList plain) (UInt64.ofNat plain.length)).1,
          (decNAS (.ofList plain) (UInt64.ofNat plain.length)).2)

/-- A receiver with the algorithms, the key and the COUNT of the sender gets a short text back. -/
theorem roundTrips_of_le (hP : P.BlockSized) {r : NASHandler} (hv : r.isValid = true) (he : r.e = .eea0)
    (hi : r.i = h.i) (hk : r.ikey = h.ikey) (hcount : r.nasCount direction = h.nasCount direction)
    (hlt : (h.nasCount direction).toNat < 2 ^ 24) (hs : s = .integrityProtected ∨ s.isCiphered = true)
    (hprot : s.isProtected = true) (hle : plain.length ≤ 254)
    (hmac : eiaCb P h.i h.ikey (octets32 (h.nasCount direction)) 0 direction.octet
      (Mem.ofList ((h.nasCount direction).toUInt8 :: plain)) ((plain.length + 1) * 8) = .ok mac) :
    RoundTrips P r s direction plain (securedPdu h p s direction plain mac) := by
  have h4 := length_of_eiaCb hP hmac
  refine ⟨by rw [length_securedPdu h4]; omega, ?_⟩
  have hg := genuine_securedPdu (p := p) hP hi hk hprot hle hmac
  have hzero : r.nasCount direction + UInt32.ofNat 0 = h.nasCount direction := by simpa using hcount
  rw [← hzero] at hg
  have hacc := (accepts_genuineFull hv (by rw [hcount]; exact hlt) (by decide) hg).1.mpr
    (Nat.mod_lt _ (by decide))
  obtain ⟨⟨ret, isAuth, r'⟩, hr', hauth⟩ := nasAuthenticateMsg_isAuth.mpr hacc
  obtain ⟨hno, -⟩ | ⟨hyes, hret, -, hh, -⟩ := nasAuthenticateMsg_shape hr'
  · rw [hauth] at hno
    cases hno
  · subst hyes hret hh
    exact ⟨_, hr', decSecNAS_securedPdu hv he hs h4 hle⟩

/-- Between two handlers with the same algorithms and KASME and the same COUNT, what `newNASMsg_sec` sends
with one of the header types 1, 2 and 4 is accepted and decodes to the original text exactly if the text has
at most 254 octets. -/
theorem protection_round_trip_iff (hP : P.BlockSized) {a b : NASHandler} {i : NASEIA} {kasme : List UInt8}
    {sent received : NASDirection → UInt32} (hcount : received direction = sent direction)
    (hlt : (sent direction).toNat < 2 ^ 24)
    (hs : s = .integrityProtected ∨ s = .integrityProtectedAndCiphered ∨
      s = .integrityProtectedAndCipheredWithNewEPSSecurityContext)
    (hout : newNASMsgSec P { nasSetSecurity P a i .eea0 kasme with nasCount := sent } p s direction plain =
      .ok (some (h', out))) :
    RoundTrips P { nasSetSecurity P b i .eea0 kasme with nasCount := received } s direction plain out ↔
      plain.length ≤ 254 := by
  obtain ⟨-, hprot, -, mac, hmac, -, rfl⟩ := newNASMsgSec_eq_ok_some.mp hout
  constructor
  · rintro ⟨hsize, -⟩
    rw [length_securedPdu (length_of_eiaCb hP hmac)] at hsize
    omega
  · intro hle
    have hs' : s = .integrityProtected ∨ s.isCiphered = true := by
      obtain rfl | rfl | rfl := hs
      · exact .inl rfl
      · exact .inr rfl
      · exact .inr rfl
    exact roundTrips_of_le hP rfl rfl rfl rfl hcount hlt hs' hprot hle hmac

/-- A Security Mode Command of the handler of the all zero KASME makes the round trip. -/
theorem protection_round_trip_iff_command :
    ∃ h' out, newNASMsgSec Prims.zeroKasme (Sample.handler 0) 7 .integrityProtected .downLink
        [0x07, 0x5d, 0x02, 0x01, 0x05, 0xe0, 0xe0, 0x00, 0x00, 0x00, 0xc1] = .ok (some (h', out)) ∧
      RoundTrips Prims.zeroKasme (Sample.handler 0) .integrityProtected .downLink
        [0x07, 0x5d, 0x02, 0x01, 0x05, 0xe0, 0xe0, 0x00, 0x00, 0x00, 0xc1] out := by
  obtain ⟨mac, hmac⟩ := eiaCb_eq_ok (P := Prims.zeroKasme) (i := .eia2) (.inr rfl) (Sample.handler 0).ikey
    (octets32 0) 0 NASDirection.downLink.octet
    (.ofList [0x00, 0x07, 0x5d, 0x02, 0x01, 0x05, 0xe0, 0xe0, 0x00, 0x00, 0x00, 0xc1]) (12 * 8)
  have hout : newNASMsgSec Prims.zeroKasme (Sample.handler 0) 7 .integrityProtected .downLink
      [0x07, 0x5d, 0x02, 0x01, 0x05, 0xe0, 0xe0, 0x00, 0x00, 0x00, 0xc1] = .ok (some (_, _)) :=
    newNASMsgSec_eq_ok_some.mpr ⟨rfl, rfl, nofun, mac, hmac, rfl, rfl⟩
  exact ⟨_, _, hout, (protection_round_trip_iff (Prims.ofAnswers_blockSized _ _ _) rfl (by decide) (.inl rfl)
    hout).mpr (by decide)⟩

/-- The length of a text of 255 octets and its sequence number is 0 in 8 bits, so only the header and the
MAC are sent. -/
theorem long_text_truncated :
    ∃ h' out, newNASMsgSec Prims.zeroKasme
        (nasSetSecurity Prims.zeroKasme nasNewHandler .eia0 .eea0 (List.replicate 32 0)) 7 .integrityProtected
        .downLink (List.replicate 255 7) = .ok (some (h', out)) ∧
      out.length = 5 ∧
      ¬ RoundTrips Prims.zeroKasme
        (nasSetSecurity Prims.zeroKasme nasNewHandler .eia0 .eea0 (List.replicate 32 0)) .integrityProtected
        .downLink (List.replicate 255 7) out := by
  have hout : newNASMsgSec Prims.zeroKasme
      (nasSetSecurity Prims.zeroKasme nasNewHandler .eia0 .eea0 (List.replicate 32 0)) 7 .integrityProtected
      .downLink (List.replicate 255 7) = .ok (some (_, _)) :=
    newNASMsgSec_eq_ok_some.mpr ⟨rfl, rfl, nofun, _, rfl, rfl, rfl⟩
  have hlen : (securedPdu (nasSetSecurity Prims.zeroKasme nasNewHandler .eia0 .eea0 (List.replicate 32 0)) 7
      .integrityProtected .downLink (List.replicate 255 7) eia0).length = _ := length_securedPdu rfl
  rw [List.length_replicate] at hlen
  refine ⟨_, _, hout, hlen, fun hrt => ?_⟩
  have hsize := hlen.symm.trans hrt.1
  rw [List.length_replicate] at hsize
  exact absurd hsize (by decide)

/-! ## The COUNTs that are used -/

/-- The arguments of one call of `newNASMsg_sec`. -/
structure SendCall where
  p : UInt8
  s : SecurityHeaderType
  direction : NASDirection
  plain : List UInt8

/-- A handler together with the COUNTs its messages used so far, oldest first. -/
structure SendLog where
  handler : NASHandler
  used : List (NASDirection × UInt32)

/-- One call on the handler of a log; a call that returns 0 sends no message. -/
def sendStep (P : Prims) (t : SendLog) (c : SendCall) : Outcome SendLog := do
  match ← newNASMsgSec P t.handler c.p c.s c.direction c.plain with
  | none => pure t
  | some (h, _) => pure ⟨h, t.used ++ [(c.direction, t.handler.nasCount c.direction)]⟩

/-- The directions of the calls that send a message: those with one of the header types 1 to 4. -/
def sentDirections (calls : List SendCall) : List NASDirection :=
  (calls.filter (·.s.isProtected)).map (·.direction)

/-- The COUNT that the message with the index `j` uses: the downlink COUNT is the number of messages sent
before, the uplink COUNT is never advanced. -/
def usedCount (j : Nat) : NASDirection → NASDirection × UInt32
  | .upLink => (.upLink, 0)
  | .downLink => (.downLink, UInt32.ofNat j)

/-- No COUNT is used twice in one direction, and none has more than 24 bits. -/
def Fresh (used : List (NASDirection × UInt32)) : Prop :=
  used.Nodup ∧ ∀ d c, (d, c) ∈ used → c ≤ 0xFFFFFF

/-- At most one message is sent uplink, and those downlink are among the first `2 ^ 24` messages. -/
structure SentFew (ds : List NASDirection) : Prop where
  upLink : ∀ j k : Nat, ds[j]? = some .upLink → ds[k]? = some .upLink → j = k
  downLink : ∀ j : Nat, ds[j]? = some .downLink → j < 2 ^ 24

/-- The COUNTs of a run, as a function of the directions. -/
structure SendLog.Counted (t : SendLog) (ds : List NASDirection) : Prop where
  valid : t.handler.isValid = true
  upLink : t.handler.nasCount .upLink = 0
  downLink : t.handler.nasCount .downLink = UInt32.ofNat ds.length
  used : t.used = ds.mapIdx usedCount

theorem SendLog.Counted.step {t u : SendLog} {ds : List NASDirection} {c : SendCall} (ht : t.Counted ds)
    (hu : sendStep P t c = .ok u) : u.Counted (ds ++ sentDirections [c]) := by
  obtain ⟨r, hr, hu⟩ := bind_eq_ok.mp hu
  cases r with
  | none =>
    have hs : c.s.isProtected = false := by
      by_contra hs
      have hinv := isValid_of_newNASMsgSec_none (by simpa using hs) hr
      rw [ht.valid] at hinv
      cases hinv
    cases hu
    simpa [sentDirections, hs] using ht
  | some x =>
    obtain ⟨h, out⟩ := x
    obtain ⟨hv, hs, -, mac, -, rfl, -⟩ := newNASMsgSec_eq_ok_some.mp hr
    cases hu
    have hds : ds ++ sentDirections [c] = ds ++ [c.direction] := by simp [sentDirections, hs]
    rw [hds]
    refine ⟨hv, ?_, ?_, ?_⟩
    · exact ht.upLink
    · simp [nasIncrementNASCount, ht.downLink]
    · rw [List.mapIdx_append, ht.used]
      cases hd : c.direction with
      | upLink => simp [usedCount, ht.upLink]
      | downLink => simp [usedCount, ht.downLink]

theorem counted_of_run {a : NASHandler} {i : NASEIA} {e : NASEEA} {kasme : List UInt8} {calls : List SendCall}
    {t : SendLog} (hrun : Run (sendStep P) (fun _ _ => True) ⟨nasSetSecurity P a i e kasme, []⟩ calls t) :
    t.Counted (sentDirections calls) := by
  induction hrun with
  | nil => exact ⟨rfl, rfl, rfl, rfl⟩
  | @snoc es t u c _ _ hu ih =>
    have happ : sentDirections (es ++ [c]) = sentDirections es ++ sentDirections [c] := by
      simp [sentDirections]
    rw [happ]
    exact ih.step hu

/-! The list of COUNTs that a list of directions leads to. -/

section

variable {ds : List NASDirection}

theorem getElem?_mapIdx_usedCount (j : Nat) : (ds.mapIdx usedCount)[j]? = ds[j]?.map (usedCount j) := by
  simp

theorem length_of_getElem?_eq_some {d : NASDirection} {j : Nat} (h : ds[j]? = some d) : j < ds.length :=
  (List.getElem?_eq_some_iff.mp h).1

/-- A downlink message after `2 ^ 24` others has a COUNT with more than 24 bits, or the one before it has:
only one of the two next messages is sent uplink. -/
theorem sentFew_of_fresh (h : Fresh (ds.mapIdx usedCount)) : SentFew ds := by
  obtain ⟨hnodup, hbound⟩ := h
  have hup : ∀ j k : Nat, ds[j]? = some .upLink → ds[k]? = some .upLink → j = k := fun j k hj hk => by
    refine (List.getElem?_inj (l := ds.mapIdx usedCount) ?_ hnodup).mp ?_
    · simpa using length_of_getElem?_eq_some hj
    · simp only [getElem?_mapIdx_usedCount, hj, hk, Option.map_some, usedCount]
  have hdown : ∀ j : Nat, 2 ^ 24 ≤ j → j ≤ 2 ^ 24 + 1 → ds[j]? ≠ some .downLink := fun j hj hj' hd => by
    have hmem : (NASDirection.downLink, UInt32.ofNat j) ∈ ds.mapIdx usedCount :=
      List.mem_iff_getElem?.mpr ⟨j, by rw [getElem?_mapIdx_usedCount, hd]; rfl⟩
    have hle := UInt32.le_iff_toNat_le.mp (hbound _ _ hmem)
    rw [UInt32.toNat_ofNat_of_lt' (by simp only [UInt32.size]; omega)] at hle
    simp only [UInt32.reduceToNat] at hle
    omega
  refine ⟨hup, fun j hj => ?_⟩
  by_contra hle
  have hne : j ≠ 2 ^ 24 ∧ j ≠ 2 ^ 24 + 1 := by
    constructor
    · rintro rfl
      exact hdown _ (by decide) (by decide) hj
    · rintro rfl
      exact hdown _ (by decide) (by decide) hj
  have hlt := length_of_getElem?_eq_some hj
  have hsent : ∀ k : Nat, k < ds.length → 2 ^ 24 ≤ k → k ≤ 2 ^ 24 + 1 → ds[k]? = some .upLink := fun k hk h₁ h₂ => by
    cases hd : ds[k]? with
    | none => exact absurd (List.getElem?_eq_none_iff.mp hd) (by omega)
    | some d =>
      cases d with
      | upLink => rfl
      | downLink => exact absurd hd (hdown k h₁ h₂)
  have heq := hup (2 ^ 24) (2 ^ 24 + 1) (hsent _ (by omega) (by omega) (by omega))
    (hsent _ (by omega) (by omega) (by omega))
  omega

theorem fresh_of_sentFew (h : SentFew ds) : Fresh (ds.mapIdx usedCount) := by
  constructor
  · refine List.nodup_iff_getElem?_ne_getElem?.mpr fun j k hjk hk heq => ?_
    rw [List.length_mapIdx] at hk
    obtain ⟨d, hd⟩ : ∃ d, ds[j]? = some d := ⟨_, List.getElem?_eq_getElem (hjk.trans hk)⟩
    obtain ⟨d', hd'⟩ : ∃ d, ds[k]? = some d := ⟨_, List.getElem?_eq_getElem hk⟩
    simp only [getElem?_mapIdx_usedCount, hd, hd', Option.map_some, Option.some.injEq] at heq
    cases d <;> cases d'
    · exact absurd (h.upLink j k hd hd') (by omega)
    · cases heq
    · cases heq
    · have hcount := congrArg UInt32.toNat (Prod.mk.inj heq).2
      have hk := h.downLink k hd'
      rw [UInt32.toNat_ofNat_of_lt' (by simp only [UInt32.size]; omega),
        UInt32.toNat_ofNat_of_lt' (by simp only [UInt32.size]; omega)] at hcount
      omega
  · intro d c hmem
    obtain ⟨j, hj⟩ := List.mem_iff_getElem?.mp hmem
    rw [getElem?_mapIdx_usedCount] at hj
    obtain ⟨d', hd, heq⟩ := Option.map_eq_some_iff.mp hj
    cases d' with
    | upLink =>
      cases heq
      decide
    | downLink =>
      cases heq
      have hlt := h.downLink j hd
      rw [UInt32.le_iff_toNat_le, UInt32.toNat_ofNat_of_lt' (by simp only [UInt32.size]; omega)]
      simp only [UInt32.reduceToNat]
      omega

end

/-- Over a run of calls after `nas_setSecurity`, no COUNT is used twice in one direction and none has more
than 24 bits, exactly if at most one message is sent uplink and those downlink are among the first `2 ^ 24`. -/
theorem counts_fresh_iff {a : NASHandler} {i : NASEIA} {e : NASEEA} {kasme : List UInt8}
    {calls : List SendCall} {t : SendLog}
    (hrun : Run (sendStep P) (fun _ _ => True) ⟨nasSetSecurity P a i e kasme, []⟩ calls t) :
    Fresh t.used ↔ SentFew (sentDirections calls) := by
  rw [(counted_of_run hrun).used]
  exact ⟨sentFew_of_fresh, fresh_of_sentFew⟩

/-- Two messages downlink and one uplink use different COUNTs. -/
theorem counts_fresh_iff_mixed :
    ∃ t, Run (sendStep Prims.zeroKasme) (fun _ _ => True)
        ⟨nasSetSecurity Prims.zeroKasme nasNewHandler .eia0 .eea0 (List.replicate 32 0), []⟩
        [⟨7, .integrityProtected, .downLink, [7, 0x5d]⟩, ⟨7, .plainNAS, .downLink, [7, 0x5d]⟩,
          ⟨7, .integrityProtectedAndCiphered, .upLink, [7, 0x5e]⟩,
          ⟨7, .integrityProtectedAndCiphered, .downLink, [7, 0x42]⟩] t ∧
      t.used = [(.downLink, 0), (.upLink, 0), (.downLink, 2)] ∧ Fresh t.used := by
  refine Run.exists_of_exec (·.used = [(.downLink, 0), (.upLink, 0), (.downLink, 2)]) (by decide +kernel) fun t hrun hused => ?_
  refine ⟨hused, (counts_fresh_iff hrun).mpr ⟨?_, ?_⟩⟩
  · intro j k hj hk
    have hone : ∀ j : Nat, [NASDirection.downLink, .upLink, .downLink][j]? = some .upLink → j = 1 := by
      rintro (_ | _ | _ | j) <;> simp
    rw [hone j hj, hone k hk]
  · exact fun j hj => (length_of_getElem?_eq_some hj).trans (by decide)

/-- Two messages uplink use the COUNT 0 twice. -/
theorem upLink_count_reused :
    ∃ t, Run (sendStep Prims.zeroKasme) (fun _ _ => True)
        ⟨nasSetSecurity Prims.zeroKasme nasNewHandler .eia0 .eea0 (List.replicate 32 0), []⟩
        [⟨7, .integrityProtected, .upLink, [7, 0x5e]⟩, ⟨7, .integrityProtected, .upLink, [7, 0x43]⟩] t ∧
      t.used = [(.upLink, 0), (.upLink, 0)] ∧ ¬ Fresh t.used := by
  refine Run.exists_of_exec (·.used = [(.upLink, 0), (.upLink, 0)]) (by decide +kernel) fun t _ hused => ?_
  refine ⟨hused, fun hf => ?_⟩
  rw [hused] at hf
  exact absurd hf.1 (by decide)

end AaltoMME.NAS
