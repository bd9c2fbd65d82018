import AaltoMME.NAS.Replay

/-!
# What `nas_authenticateMsg` accepts

The messages that the verifier accepts are those in the window with the right MAC, and accepting one
changes the COUNT of its direction and nothing else.  A sender that shares the COUNT of the verifier can
therefore lose messages, as long as the sequence number does not wrap on the way: the window is a range of
sequence numbers and not of COUNTs.
-/

namespace AaltoMME.NAS

open Base

variable {P : Prims} {h : NASHandler} {direction : NASDirection} {buf : Mem} {size : UInt32}

/-! ## Exact acceptance -/

/-- A sequence number is one of the ten from `e` on. -/
def InWindow (e sn : Nat) : Prop := e ≤ sn ∧ sn ≤ e + 9

/-- The digest that `nas_authenticateMsg` computes for a message of the header types 1 to 4, which is
over the octets from the sequence number on. -/
def fullMac (P : Prims) (h : NASHandler) (buf : Mem) (size : UInt32) (direction : NASDirection) :
    Outcome (List UInt8) :=
  eiaCb P h.i h.ikey (octets32 ((h.nasCount direction &&& 0xFFFF00) ||| (buf 5).toUInt32)) 0
    direction.octet (buf.shift 5) ((size - 5) * 8).toNat

/-- The digest for a Service Request, which is over its first two octets. -/
def shortMac (P : Prims) (h : NASHandler) (buf : Mem) (direction : NASDirection) : Outcome (List UInt8) :=
  eiaCb P h.i h.ikey (octets32 ((h.nasCount direction &&& 0xFFFFE0) ||| (buf 1 &&& 0x1F).toUInt32)) 0
    direction.octet buf (2 * 8)

/-- A message of the header types 1 to 4 that is in the window and has the right MAC. -/
def AcceptsFull (P : Prims) (h : NASHandler) (buf : Mem) (size : UInt32) (direction : NASDirection) : Prop :=
  InWindow ((h.nasCount direction).toNat % 2 ^ 8) (buf 5).toNat ∧
    (h.i = .eia0 ∨ fullMac P h buf size direction = .ok (buf.read 1 4))

/-- A Service Request that is in the window and has the right last two octets of the MAC. -/
def AcceptsShort (P : Prims) (h : NASHandler) (buf : Mem) (direction : NASDirection) : Prop :=
  InWindow ((h.nasCount direction).toNat % 2 ^ 5) (buf 1 &&& 0x1F).toNat ∧
    (h.i = .eia0 ∨ ∃ mac, shortMac P h buf direction = .ok mac ∧ mac.drop 2 = buf.read 2 2)

/-- A message that a handler accepts. -/
def Accepts (P : Prims) (h : NASHandler) (buf : Mem) (size : UInt32) (direction : NASDirection) : Prop :=
  h.isValid = true ∧ ∃ s p, nasGetHeader buf size = some (s, p) ∧
    (s.isProtected = true ∧ AcceptsFull P h buf size direction ∨
      s = .serviceRequest ∧ AcceptsShort P h buf direction)

/-- The buffer holds the octets that the branch of its header type reads. -/
def SufficientSize (buf : Mem) (size : UInt32) : Prop :=
  ∃ s p, nasGetHeader buf size = some (s, p) ∧ (s.isProtected = true → 6 ≤ size) ∧
    (s = .serviceRequest → 4 ≤ size)

/-- The algorithms with an entry in `eia_cb`. -/
def NASEIA.Implemented (i : NASEIA) : Prop := i = .eia0 ∨ i = .eia2

theorem eiaCb_eq_ok {i : NASEIA} (hi : i.Implemented) (k count : List UInt8) (bearer d : UInt8) (msg : Mem)
    (mLen : Nat) : ∃ mac, eiaCb P i k count bearer d msg mLen = .ok mac := by
  obtain rfl | rfl := hi
  · exact ⟨_, rfl⟩
  · exact eia2_eq_ok P k count bearer d msg mLen

/-- The MAC test of both branches: an error if the algorithm is not implemented, and otherwise a
comparison that EIA0 does not need. -/
theorem macTest_isAuth {m : Outcome (List UInt8)} (q : List UInt8 → Prop) [DecidablePred q] (r r' : AuthResult)
    (hr : r.isAuth = true) (hr' : r'.isAuth = false) (hm : h.i = .eia0 → ∃ mac, m = .ok mac) :
    (∃ a, (m >>= fun mac => if q mac ∨ h.i = .eia0 then .ok r else .ok r') = .ok a ∧ a.isAuth = true) ↔
      (h.i = .eia0 ∨ ∃ mac, m = .ok mac ∧ q mac) := by
  constructor
  · rintro ⟨a, ha, hauth⟩
    obtain ⟨mac, hmac, ha⟩ := bind_eq_ok.mp ha
    split at ha
    · rename_i hq
      exact hq.symm.imp_right fun hq => ⟨mac, hmac, hq⟩
    · cases ha
      rw [hr'] at hauth
      cases hauth
  · intro hq
    obtain ⟨mac, hmac⟩ : ∃ mac, m = .ok mac := hq.elim hm fun ⟨mac, hmac, _⟩ => ⟨mac, hmac⟩
    have htest : q mac ∨ h.i = .eia0 := by
      obtain h0 | ⟨mac', hmac', hq⟩ := hq
      · exact .inr h0
      · rw [hmac] at hmac'
        cases hmac'
        exact .inl hq
    exact ⟨r, by simp [hmac, htest], hr⟩

theorem authenticateProtected_isAuth :
    (∃ a, authenticateProtected P h buf size direction = .ok a ∧ a.isAuth = true) ↔
      AcceptsFull P h buf size direction := by
  unfold authenticateProtected AcceptsFull InWindow
  rw [← nasCheckCOUNT_iff]
  dsimp only
  cases hw : nasCheckCOUNT (h.nasCount direction) (buf 5) with
  | false =>
    simp only [Bool.not_false, if_true, Except.ok.injEq, Bool.false_eq_true, false_and, iff_false]
    rintro ⟨_, rfl, ⟨⟩⟩
  | true =>
    simp only [true_and]
    refine (macTest_isAuth (buf.read 1 4 = ·) ⟨1, true, _⟩ ⟨1, false, h⟩ rfl rfl
      fun h0 => eiaCb_eq_ok (.inl h0) ..).trans (or_congr_right ?_)
    constructor
    · rintro ⟨mac, hmac, rfl⟩
      exact hmac
    · exact fun hmac => ⟨_, hmac, rfl⟩

theorem authenticateServiceRequest_isAuth :
    (∃ a, authenticateServiceRequest P h buf direction = .ok a ∧ a.isAuth = true) ↔
      AcceptsShort P h buf direction := by
  unfold authenticateServiceRequest AcceptsShort InWindow
  rw [← nasCheckCOUNTshort_iff]
  dsimp only
  cases hw : nasCheckCOUNTshort (h.nasCount direction) (buf 1 &&& 0x1F) with
  | false =>
    simp only [Bool.not_false, if_true, Except.ok.injEq, Bool.false_eq_true, false_and, iff_false]
    rintro ⟨_, rfl, ⟨⟩⟩
  | true =>
    simp only [Bool.not_true, Bool.false_eq_true, if_false, true_and]
    refine (macTest_isAuth (fun mac => buf.read 2 2 = mac.drop 2) ⟨1, true, _⟩ ⟨1, false, h⟩ rfl rfl
      fun h0 => eiaCb_eq_ok (.inl h0) ..).trans (or_congr_right ?_)
    exact exists_congr fun mac => and_congr_right fun _ => eq_comm

theorem nasAuthenticateMsg_isAuth :
    (∃ r, nasAuthenticateMsg P h buf size direction = .ok r ∧ r.isAuth = true) ↔
      Accepts P h buf size direction := by
  unfold nasAuthenticateMsg Accepts
  cases hv : h.isValid with
  | false => simp
  | true =>
    cases hhead : nasGetHeader buf size with
    | none => simp
    | some x =>
      obtain ⟨s, p⟩ := x
      by_cases hs : s.isProtected = true
      · have hne : s ≠ .serviceRequest := by
          rintro rfl
          cases hs
        simpa [hs, hne] using authenticateProtected_isAuth
      · by_cases hsr : s = .serviceRequest
        · simpa [hsr, SecurityHeaderType.isProtected] using authenticateServiceRequest_isAuth
        · simp [hs, hsr]

/-- With an algorithm that is implemented, every call on a buffer of sufficient size returns. -/
theorem nasAuthenticateMsg_eq_ok (hi : h.i.Implemented) (hsize : SufficientSize buf size) :
    ∃ r, nasAuthenticateMsg P h buf size direction = .ok r := by
  obtain ⟨s, p, hhead, -⟩ := hsize
  simp only [nasAuthenticateMsg, hhead, authenticateProtected, authenticateServiceRequest]
  obtain ⟨mac, hmac⟩ := eiaCb_eq_ok (P := P) hi h.ikey (octets32 (h.rcvCOUNT direction (buf 5))) 0
    direction.octet (buf.shift 5) ((size - 5) * 8).toNat
  obtain ⟨mac', hmac'⟩ := eiaCb_eq_ok (P := P) hi h.ikey
    (octets32 (h.rcvCOUNTshort direction (buf 1 &&& 0x1F))) 0 direction.octet buf (2 * 8)
  simp only [hmac, hmac', ok_bind]
  split_ifs <;> exact ⟨_, rfl⟩

/-- The verdict of `nas_authenticateMsg` and its effect: it authenticates a message exactly if the handler
accepts it, and then stores the COUNT after that of the message and changes nothing else; otherwise the
handler stays as it was.  A call that returns no verdict is one of an algorithm that is not implemented. -/
theorem nasAuthenticateMsg_exact (hsize : SufficientSize buf size) :
    ((∃ r, nasAuthenticateMsg P h buf size direction = .ok r ∧ r.isAuth = true) ↔
      Accepts P h buf size direction) ∧
    (∀ r, nasAuthenticateMsg P h buf size direction = .ok r → r.isAuth = true →
      r.handler = h.withCount direction (msgCOUNT h buf size direction + 1)) ∧
    (∀ r, nasAuthenticateMsg P h buf size direction = .ok r → r.isAuth = false → r.handler = h) ∧
    (h.i.Implemented → ∃ r, nasAuthenticateMsg P h buf size direction = .ok r) := by
  refine ⟨nasAuthenticateMsg_isAuth, fun r hr ha => ?_, fun r hr ha => ?_,
    fun hi => nasAuthenticateMsg_eq_ok hi hsize⟩
  · obtain ⟨hno, -⟩ | ⟨-, -, -, hh, -⟩ := nasAuthenticateMsg_shape hr
    · rw [ha] at hno
      cases hno
    · exact hh
  · obtain ⟨-, hh⟩ | ⟨hyes, -⟩ := nasAuthenticateMsg_shape hr
    · exact hh
    · rw [ha] at hyes
      cases hyes

/-- The handler of the all zero KASME accepts the first uplink message of its UE. -/
theorem nasAuthenticateMsg_exact_first :
    Accepts Prims.zeroKasme (nasSetSecurity Prims.zeroKasme nasNewHandler .eia2 .eea0 (List.replicate 32 0))
        (.ofList [0x17, 0xf6, 0xd4, 0x68, 0xc5, 0x00, 0x07, 0x43, 0x00, 0x00]) 10 .upLink ∧
      ∃ r, nasAuthenticateMsg Prims.zeroKasme
          (nasSetSecurity Prims.zeroKasme nasNewHandler .eia2 .eea0 (List.replicate 32 0))
          (.ofList [0x17, 0xf6, 0xd4, 0x68, 0xc5, 0x00, 0x07, 0x43, 0x00, 0x00]) 10 .upLink = .ok r ∧
        r.handler = (nasSetSecurity Prims.zeroKasme nasNewHandler .eia2 .eea0
          (List.replicate 32 0)).withCount .upLink 1 := by
  have hsize : SufficientSize (.ofList [0x17, 0xf6, 0xd4, 0x68, 0xc5, 0x00, 0x07, 0x43, 0x00, 0x00]) 10 :=
    ⟨.integrityProtected, 7, rfl, fun _ => by decide, nofun⟩
  obtain ⟨hiff, hset, -, hok⟩ := @nasAuthenticateMsg_exact Prims.zeroKasme
    (nasSetSecurity Prims.zeroKasme nasNewHandler .eia2 .eea0 (List.replicate 32 0)) .upLink _ _ hsize
  obtain ⟨r, hr⟩ := hok (.inr rfl)
  have hauth : ((nasAuthenticateMsg Prims.zeroKasme
      (nasSetSecurity Prims.zeroKasme nasNewHandler .eia2 .eea0 (List.replicate 32 0))
      (.ofList [0x17, 0xf6, 0xd4, 0x68, 0xc5, 0x00, 0x07, 0x43, 0x00, 0x00]) 10 .upLink).toOption.any
        AuthResult.isAuth) = true := by decide +kernel
  rw [hr] at hauth
  exact ⟨hiff.mp ⟨r, hr, hauth⟩, r, hr, hset r hr hauth⟩

/-! ## Lost messages -/

/-- A message with a full MAC that a sender with the algorithm and the key of `h` protects under a
COUNT.  Its length in bits fits the 32 bits that `nas_authenticateMsg` computes it in. -/
structure GenuineFull (P : Prims) (h : NASHandler) (direction : NASDirection) (count : UInt32) (buf : Mem)
    (size : UInt32) : Prop where
  header : ∃ s p, nasGetHeader buf size = some (s, p) ∧ s.isProtected = true
  le_size : 6 ≤ size.toNat
  size_lt : size.toNat < 2 ^ 29
  sqn : buf 5 = count.toUInt8
  mac : eiaCb P h.i h.ikey (octets32 count) 0 direction.octet (buf.shift 5) ((size.toNat - 5) * 8) =
    .ok (buf.read 1 4)

/-- A Service Request that a sender with the algorithm and the key of `h` protects under a COUNT. -/
structure GenuineShort (P : Prims) (h : NASHandler) (direction : NASDirection) (count : UInt32) (buf : Mem)
    (size : UInt32) : Prop where
  header : ∃ p, nasGetHeader buf size = some (.serviceRequest, p)
  le_size : 4 ≤ size.toNat
  sqn : buf 1 &&& 0x1F = count.toUInt8 &&& 0x1F
  mac : ∃ mac, eiaCb P h.i h.ikey (octets32 count) 0 direction.octet buf (2 * 8) = .ok mac ∧
    mac.drop 2 = buf.read 2 2

variable {k : Nat}

theorem toNat_count_add (hc : (h.nasCount direction).toNat + k < 2 ^ 24) :
    (h.nasCount direction + UInt32.ofNat k).toNat = (h.nasCount direction).toNat + k := by
  have hsize : k < UInt32.size := lt_of_le_of_lt (Nat.le_add_left ..) (hc.trans (by decide))
  rw [UInt32.toNat_add, UInt32.toNat_ofNat_of_lt' hsize]
  omega

theorem toNat_and_0x1F (b : UInt8) : (b &&& 0x1F).toNat = b.toNat % 2 ^ 5 := Nat.and_two_pow_sub_one_eq_mod _ 5

theorem accepted_iff {count : UInt32} (hv : msgCOUNT h buf size direction = count ∨
      ¬ Accepts P h buf size direction) :
    (∃ r, nasAuthenticateMsg P h buf size direction = .ok r ∧ r.isAuth = true ∧
      r.handler.nasCount direction = count + 1) ↔ Accepts P h buf size direction := by
  rw [← nasAuthenticateMsg_isAuth] at hv ⊢
  constructor
  · rintro ⟨r, hr, ha, -⟩
    exact ⟨r, hr, ha⟩
  · rintro ⟨r, hr, ha⟩
    refine ⟨r, hr, ha, ?_⟩
    obtain ⟨hno, -⟩ | ⟨-, -, -, hh, -⟩ := nasAuthenticateMsg_shape hr
    · rw [ha] at hno
      cases hno
    · rw [hh, withCount_nasCount_self, hv.resolve_right (not_not.mpr ⟨r, hr, ha⟩)]

/-- A genuine message after `k` lost ones is accepted exactly if its 8 bit sequence number did not wrap. -/
theorem accepts_genuineFull (hvalid : h.isValid = true) (hc : (h.nasCount direction).toNat + k < 2 ^ 24)
    (hk : k ≤ 9) (hg : GenuineFull P h direction (h.nasCount direction + UInt32.ofNat k) buf size) :
    (Accepts P h buf size direction ↔ (h.nasCount direction).toNat % 2 ^ 8 + k < 2 ^ 8) ∧
      ((h.nasCount direction).toNat % 2 ^ 8 + k < 2 ^ 8 →
        msgCOUNT h buf size direction = h.nasCount direction + UInt32.ofNat k) := by
  obtain ⟨⟨s, p, hhead, hs⟩, hle, hlt, hsqn, hmac⟩ := hg
  have hadd := toNat_count_add hc
  have hsn : (buf 5).toNat = ((h.nasCount direction).toNat + k) % 2 ^ 8 := by
    rw [hsqn, UInt32.toNat_toUInt8, hadd]
  have hcount : (h.nasCount direction).toNat % 2 ^ 8 + k < 2 ^ 8 →
      h.rcvCOUNT direction (buf 5) = h.nasCount direction + UInt32.ofNat k := fun hwrap => by
    rw [← UInt32.toNat_inj, toNat_rcvCOUNT]
    omega
  have hne : s ≠ .serviceRequest := by
    rintro rfl
    cases hs
  have hlen : ((size - 5) * 8).toNat = (size.toNat - 5) * 8 := by
    have h5 : (5 : UInt32) ≤ size := by
      exact Nat.le_of_lt hle
    rw [UInt32.toNat_mul, UInt32.toNat_sub_of_le _ _ h5]
    simp only [UInt32.reduceToNat]
    omega
  refine ⟨⟨?_, fun hwrap => ?_⟩, fun hwrap => ?_⟩
  · rintro ⟨-, _, _, hh, ⟨-, hwin, -⟩ | ⟨rfl, -⟩⟩
    · have := hwin.1
      omega
    · rw [hhead] at hh
      cases hh
      exact absurd rfl hne
  · refine ⟨hvalid, s, p, hhead, .inl ⟨hs, ⟨by omega, by omega⟩, .inr ?_⟩⟩
    have hrcv := hcount hwrap
    simp only [NASHandler.rcvCOUNT] at hrcv
    rw [fullMac, hrcv, hlen, hmac]
  · cases s <;> simp_all [msgCOUNT]

/-- The same for a Service Request and its 5 bit sequence number. -/
theorem accepts_genuineShort (hvalid : h.isValid = true) (hc : (h.nasCount direction).toNat + k < 2 ^ 24)
    (hk : k ≤ 9) (hg : GenuineShort P h direction (h.nasCount direction + UInt32.ofNat k) buf size) :
    (Accepts P h buf size direction ↔ (h.nasCount direction).toNat % 2 ^ 5 + k < 2 ^ 5) ∧
      ((h.nasCount direction).toNat % 2 ^ 5 + k < 2 ^ 5 →
        msgCOUNT h buf size direction = h.nasCount direction + UInt32.ofNat k) := by
  obtain ⟨⟨p, hhead⟩, hle, hsqn, mac, hmac, hread⟩ := hg
  have hadd := toNat_count_add hc
  have hsn : (buf 1 &&& 0x1F).toNat = ((h.nasCount direction).toNat + k) % 2 ^ 5 := by
    rw [hsqn, toNat_and_0x1F, UInt32.toNat_toUInt8]
    omega
  have hcount : (h.nasCount direction).toNat % 2 ^ 5 + k < 2 ^ 5 →
      h.rcvCOUNTshort direction (buf 1 &&& 0x1F) = h.nasCount direction + UInt32.ofNat k := fun hwrap => by
    rw [← UInt32.toNat_inj, toNat_rcvCOUNTshort (and_0x1F_lt _), hsn]
    omega
  refine ⟨⟨?_, fun hwrap => ?_⟩, fun hwrap => ?_⟩
  · rintro ⟨-, _, _, hh, ⟨hs, -⟩ | ⟨-, hwin, -⟩⟩
    · rw [hhead] at hh
      cases hh
      cases hs
    · have := hwin.1
      omega
  · refine ⟨hvalid, _, p, hhead, .inr ⟨rfl, ⟨by omega, by omega⟩, .inr ⟨mac, ?_, hread⟩⟩⟩
    have hrcv := hcount hwrap
    simp only [NASHandler.rcvCOUNTshort] at hrcv
    rw [shortMac, hrcv, hmac]
  · rw [← hcount hwrap]
    simp [msgCOUNT, hhead]

/-- Loss tolerance: a verifier that shares the COUNT of the sender accepts the genuine message that
follows `k ≤ 9` lost ones, and shares the COUNT again, exactly if the sequence number does not wrap
between the two. -/
theorem loss_tolerance_iff (hvalid : h.isValid = true) (hc : (h.nasCount direction).toNat < 2 ^ 24 - 16)
    (hk : k ≤ 9) :
    (∀ buf size, GenuineFull P h direction (h.nasCount direction + UInt32.ofNat k) buf size →
      ((∃ r, nasAuthenticateMsg P h buf size direction = .ok r ∧ r.isAuth = true ∧
          r.handler.nasCount direction = h.nasCount direction + UInt32.ofNat k + 1) ↔
        (h.nasCount direction).toNat % 2 ^ 8 + k < 2 ^ 8)) ∧
    ∀ buf size, GenuineShort P h direction (h.nasCount direction + UInt32.ofNat k) buf size →
      ((∃ r, nasAuthenticateMsg P h buf size direction = .ok r ∧ r.isAuth = true ∧
          r.handler.nasCount direction = h.nasCount direction + UInt32.ofNat k + 1) ↔
        (h.nasCount direction).toNat % 2 ^ 5 + k < 2 ^ 5) := by
  have hc : (h.nasCount direction).toNat + k < 2 ^ 24 := by omega
  constructor
  · intro buf size hg
    obtain ⟨hiff, hcount⟩ := accepts_genuineFull hvalid hc hk hg
    rw [accepted_iff ((em _).imp hcount (mt hiff.mp)), hiff]
  · intro buf size hg
    obtain ⟨hiff, hcount⟩ := accepts_genuineShort hvalid hc hk hg
    rw [accepted_iff ((em _).imp hcount (mt hiff.mp)), hiff]

namespace Sample

/-- The handler of the all zero KASME, with the same COUNT in both directions. -/
def handler (count : UInt32) : NASHandler :=
  { nasSetSecurity Prims.zeroKasme nasNewHandler .eia2 .eea0 (List.replicate 32 0) with
    nasCount := fun _ => count }

theorem serviceRequest_genuine {count : UInt32} {l : List UInt8} (hhead : (l.getD 0 0) = 0xc7)
    (hsqn : l.getD 1 0 &&& 0x1F = count.toUInt8 &&& 0x1F)
    (hmac : (eiaCb Prims.zeroKasme .eia2 (handler 0).ikey (octets32 count) 0 NASDirection.upLink.octet
      (.ofList l) (2 * 8)).toOption.map (·.drop 2) = some ((Mem.ofList l).read 2 2)) (h : NASHandler)
    (hi : h.i = .eia2) (hk : h.ikey = (handler 0).ikey) :
    GenuineShort Prims.zeroKasme h .upLink count (.ofList l) 4 := by
  obtain ⟨mac, hok⟩ := eiaCb_eq_ok (P := Prims.zeroKasme) (i := .eia2) (.inr rfl) (handler 0).ikey
    (octets32 count) 0 NASDirection.upLink.octet (.ofList l) (2 * 8)
  refine ⟨⟨7, ?_⟩, by decide, hsqn, mac, by rw [hi, hk, hok], ?_⟩
  · have h0 : Mem.ofList l 0 = 0xc7 := hhead
    simp only [nasGetHeader, h0]
    rfl
  · rw [hok] at hmac
    exact Option.some.inj hmac

end Sample

/-- The first message is lost, and the Service Request under the COUNT 1 is accepted. -/
theorem loss_tolerance_iff_first :
    ∃ r, nasAuthenticateMsg Prims.zeroKasme (Sample.handler 0) (.ofList [0xc7, 0x01, 0x86, 0x88]) 4 .upLink =
        .ok r ∧ r.isAuth = true ∧ r.handler.nasCount .upLink = 2 := by
  have hg : GenuineShort Prims.zeroKasme (Sample.handler 0) .upLink 1 (.ofList [0xc7, 0x01, 0x86, 0x88]) 4 :=
    Sample.serviceRequest_genuine rfl (by decide) (by decide +kernel) _ rfl rfl
  exact ((@loss_tolerance_iff Prims.zeroKasme (Sample.handler 0) .upLink 1 rfl (by decide)
    (by decide)).2 _ _ hg).mpr (by decide)

/-- The verifier and the sender share the COUNT 255, and the message under it is lost: the genuine message
under the COUNT 256, with the sequence number 0, is refused.  So is the Service Request under the COUNT 32
when the one under the COUNT 31 is lost. -/
theorem loss_across_wrap_refused :
    (GenuineFull Prims.zeroKasme (Sample.handler 255) .upLink 256
        (.ofList [0x17, 0x93, 0x4f, 0xe1, 0x01, 0x00, 0x07, 0x43, 0x00, 0x00]) 10 ∧
      ∃ r, nasAuthenticateMsg Prims.zeroKasme (Sample.handler 255)
          (.ofList [0x17, 0x93, 0x4f, 0xe1, 0x01, 0x00, 0x07, 0x43, 0x00, 0x00]) 10 .upLink = .ok r ∧
        r.isAuth = false ∧ r.handler.nasCount .upLink = 255) ∧
    GenuineShort Prims.zeroKasme (Sample.handler 31) .upLink 32 (.ofList [0xc7, 0x00, 0x20, 0xc5]) 4 ∧
      ∃ r, nasAuthenticateMsg Prims.zeroKasme (Sample.handler 31) (.ofList [0xc7, 0x00, 0x20, 0xc5]) 4 .upLink =
        .ok r ∧ r.isAuth = false ∧ r.handler.nasCount .upLink = 31 := by
  refine ⟨⟨⟨⟨.integrityProtected, 7, rfl, rfl⟩, by decide, by decide, rfl, ?_⟩, _, rfl, rfl, rfl⟩,
    Sample.serviceRequest_genuine rfl (by decide) (by decide +kernel) _ rfl rfl, _, rfl, rfl, rfl⟩
  obtain ⟨mac, hok⟩ := eiaCb_eq_ok (P := Prims.zeroKasme) (i := .eia2) (.inr rfl) (Sample.handler 255).ikey
    (octets32 256) 0 NASDirection.upLink.octet
    ((Mem.ofList [0x17, 0x93, 0x4f, 0xe1, 0x01, 0x00, 0x07, 0x43, 0x00, 0x00]).shift 5) 40
  have hmac : (eiaCb Prims.zeroKasme .eia2 (Sample.handler 255).ikey (octets32 256) 0
      NASDirection.upLink.octet
      ((Mem.ofList [0x17, 0x93, 0x4f, 0xe1, 0x01, 0x00, 0x07, 0x43, 0x00, 0x00]).shift 5) 40).toOption =
        some [0x93, 0x4f, 0xe1, 0x01] := by decide +kernel
  rw [hok] at hmac
  exact hok.trans (congrArg Except.ok (Option.some.inj hmac))

end AaltoMME.NAS
