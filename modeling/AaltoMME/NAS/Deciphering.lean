import AaltoMME.NAS.Protection

/-!
# The COUNT of the ciphers

The algorithms that the NAS library has a place for, with the null algorithm as the only one implemented.  Both
`newNASMsg_sec` and `dec_secNAS` hand the stored COUNT to the algorithm.  For the sender this is the COUNT of the
message; for the receiver `nas_authenticateMsg` has just replaced it by the COUNT that it expects next.
-/

namespace AaltoMME.NAS

open Base

/-- An entry of `eea_cyph_cb` with the entry of `eea_dec_cb`: functions of key, COUNT, bearer, direction and text. -/
structure EEA where
  cyph : List UInt8 → List UInt8 → UInt8 → UInt8 → List UInt8 → List UInt8
  dec : List UInt8 → List UInt8 → UInt8 → UInt8 → Mem → Nat → Mem

namespace EEA

/-- `eea0_cyph` and `eea0_dec`. -/
def null : EEA := ⟨fun _ _ _ _ plain => plain, fun _ _ _ _ msg _ => msg⟩

/-- With the same key, COUNT, bearer and direction the text is recovered. -/
def Inverts (C : EEA) : Prop :=
  ∀ k count bearer direction plain, (C.cyph k count bearer direction plain).length = plain.length ∧
    (C.dec k count bearer direction (.ofList (C.cyph k count bearer direction plain)) plain.length).read 0 plain.length =
      plain

end EEA

/-- The octets of `nas_count` that are handed to an algorithm. -/
def eeaCOUNT (h : NASHandler) (direction : NASDirection) : List UInt8 := octets32 (h.nasCount direction)

/-- The text behind the sequence number. -/
def protectedText (C : EEA) (h : NASHandler) (s : SecurityHeaderType) (direction : NASDirection) (plain : List UInt8) :
    List UInt8 :=
  if s.isCiphered then C.cyph h.ekey (eeaCOUNT h direction) 0 direction.octet plain else plain

/-- `newNASMsg_sec` with the algorithm `C`. -/
def newNASMsgSecWith (P : Prims) (C : EEA) (h : NASHandler) (p : UInt8) (s : SecurityHeaderType)
    (direction : NASDirection) (plain : List UInt8) : Outcome (Option (NASHandler × List UInt8)) :=
  if !h.isValid then .ok none
  else if !s.isProtected then .ok none
  else
    let text := protectedText C h s direction plain
    if plain.length ≠ text.length then .ok none
    else do
      let mac ← eiaCb P h.i h.ikey (octets32 (h.nasCount direction)) 0 direction.octet
        (Mem.ofList ((h.nasCount direction).toUInt8 :: text)) ((plain.length + 1) * 8)
      .ok (some (nasIncrementNASCount h .downLink, securedPdu h p s direction text mac))

/-- `dec_secNAS` with the algorithm `C`. -/
def decSecNASWith (C : EEA) (h : NASHandler) (direction : NASDirection) (buf : Mem) (size : UInt64) :
    Outcome (Bool × GenericNASMsg) :=
  match nasGetHeader buf size.toUInt32 with
  | none => .error .uninitialised
  | some (s, _) =>
    if s = .integrityProtected then .ok (true, (decNAS (buf.shift 6) (size - 6)).2)
    else if ¬ (s.isCiphered ∨ s = .serviceRequest) then .ok (false, Mem.zero)
    else if !h.isValid then .ok (false, Mem.zero)
    else if size < 6 then .error .overflow
    else
      let plain := C.dec h.ekey (eeaCOUNT h direction) 0 direction.octet (buf.shift 6) (size - 6).toNat
      .ok (decNAS plain (size - 6))

variable {P : Prims} {C : EEA} {h : NASHandler} {p : UInt8} {s : SecurityHeaderType} {direction : NASDirection}
  {plain out : List UInt8} {buf : Mem} {size : UInt64}

/-- With the null algorithm these are the functions of the library. -/
theorem newNASMsgSecWith_null (he : h.e = .eea0) :
    newNASMsgSecWith P .null h p s direction plain = newNASMsgSec P h p s direction plain := by
  simp only [newNASMsgSecWith, newNASMsgSec, protectedText, he, EEA.null, ite_self, ne_eq]
  by_cases hc : s.isCiphered = true
  · rw [if_pos hc]
    rfl
  · rw [if_neg hc]
    rfl

theorem decSecNASWith_null (he : h.e = .eea0) : decSecNASWith .null h direction buf size = decSecNAS h buf size := by
  simp only [decSecNAS, he]
  rfl

theorem newNASMsgSecWith_eq_some (hP : P.BlockSized) {h' : NASHandler}
    (ho : newNASMsgSecWith P C h p s direction plain = .ok (some (h', out))) :
    ∃ text mac, text.length = plain.length ∧ mac.length = 4 ∧ out = securedPdu h p s direction text mac := by
  unfold newNASMsgSecWith at ho
  split at ho
  · cases ho
  split at ho
  · cases ho
  dsimp only at ho
  split at ho
  · cases ho
  rename_i hlen
  obtain ⟨mac, hmac, ho⟩ := bind_eq_ok.mp ho
  cases ho
  exact ⟨_, mac, (not_not.mp hlen).symm, length_of_eiaCb hP hmac, rfl⟩

theorem securedPdu_sqn {mac : List UInt8} (hmac : mac.length = 4) (hlen : (plain.length + 1) % 256 ≠ 0) :
    (securedPdu h p s direction plain mac).getD 5 0 = (h.nasCount direction).toUInt8 := by
  obtain ⟨n, hn⟩ := Nat.exists_eq_succ_of_ne_zero hlen
  rw [securedPdu, hn, List.getD_cons_succ, List.getD, List.getElem?_append_right (by omega), hmac]
  rfl

/-- The COUNT that `dec_secNAS` hands to the algorithm for a message that was accepted is not the one of the sender, as
far as the sequence number is in the message. -/
theorem deciphering_count_iff (hP : P.BlockSized) {ue ue' mme : NASHandler} {r : AuthResult} (hs : s.isCiphered = true)
    (hsend : newNASMsgSecWith P C ue p s direction plain = .ok (some (ue', out)))
    (hbuf : ∀ i < out.length, buf i = out.getD i 0)
    (hauth : nasAuthenticateMsg P mme buf (UInt32.ofNat out.length) direction = .ok r) :
    (r.isAuth = true → eeaCOUNT r.handler direction = eeaCOUNT ue direction) ↔
      (r.isAuth = true → (plain.length + 1) % 256 = 0 ∧ mme.rcvCOUNT direction (buf 5) + 1 = ue.nasCount direction) := by
  obtain ⟨text, mac, htext, hmac, rfl⟩ := newNASMsgSecWith_eq_some hP hsend
  have hprot : s.isProtected = true := by cases s <;> first | rfl | cases hs
  have hlength : (securedPdu ue p s direction text mac).length = 5 + (text.length + 1) % 256 := length_securedPdu hmac
  have hsize : 1 ≤ UInt32.ofNat (securedPdu ue p s direction text mac).length := by
    rw [UInt32.le_iff_toNat_le, UInt32.toNat_ofNat']
    simp only [UInt32.reduceToNat]
    omega
  have hheader : ∃ d, nasGetHeader buf (UInt32.ofNat (securedPdu ue p s direction text mac).length) = some (s, d) := by
    obtain ⟨d, hd⟩ := header_securedPdu ue p direction text mac hprot hsize
    refine ⟨d, ?_⟩
    rw [← hd, nasGetHeader, hbuf 0 (by omega)]
    rfl
  have hcount : r.isAuth = true → r.handler.nasCount direction = mme.rcvCOUNT direction (buf 5) + 1 := by
    intro ha
    rcases nasAuthenticateMsg_shape hauth with ⟨hno, -⟩ | ⟨-, -, -, hh, -⟩
    · rw [ha] at hno
      cases hno
    obtain ⟨d, hd⟩ := hheader
    have hmsg : msgCOUNT mme buf (UInt32.ofNat (securedPdu ue p s direction text mac).length) direction =
        mme.rcvCOUNT direction (buf 5) := by
      rw [msgCOUNT, hd]
      cases s with
      | serviceRequest => cases hs
      | _ => rfl
    rw [hh, withCount_nasCount_self, hmsg]
  refine forall_congr' fun ha => ?_
  rw [eeaCOUNT, eeaCOUNT, octets32_injective.eq_iff, hcount ha]
  refine ⟨fun heq => ⟨?_, heq⟩, fun h => h.2⟩
  -- the low octets are the sequence number and its successor
  by_contra hlen
  rw [← htext] at hlen
  have hsqn : buf 5 = (ue.nasCount direction).toUInt8 := by
    rw [hbuf 5 (by omega), securedPdu_sqn hmac hlen]
  have hlow := congrArg (fun n : UInt32 => n.toNat % 256) heq
  simp only [UInt32.toNat_add, toNat_rcvCOUNT, hsqn, UInt32.toNat_toUInt8, UInt32.reduceToNat] at hlow
  omega

namespace Sample

/-- An algorithm that adds the last octet of the COUNT to every octet of the text. -/
def shiftCipher : EEA where
  cyph _ count _ _ plain := plain.map (· + count.getD 3 0)
  dec _ count _ _ msg _ := fun i => msg i - count.getD 3 0

theorem shiftCipher_inverts : shiftCipher.Inverts := by
  intro k count bearer direction plain
  refine ⟨List.length_map _, ?_⟩
  refine List.ext_getElem (by simp) fun i hi hi' => ?_
  have hget := List.getElem?_eq_getElem hi'
  simp [Mem.read, shiftCipher, Mem.ofList, hget]

def keyed : NASHandler := nasSetSecurity Prims.zeroKasme nasNewHandler .eia0 .eea0 (List.replicate 32 0)

end Sample

/-- The MME deciphers the first Security Mode Complete with the COUNT 1, and gets another message. -/
theorem not_deciphered : Sample.shiftCipher.Inverts ∧
    ∃ ue' out r, newNASMsgSecWith Prims.zeroKasme Sample.shiftCipher Sample.keyed 7
        .integrityProtectedAndCipheredWithNewEPSSecurityContext .upLink [7, 0x5E] = .ok (some (ue', out)) ∧
      nasAuthenticateMsg Prims.zeroKasme Sample.keyed (.ofList out) (UInt32.ofNat out.length) .upLink = .ok r ∧
      r.isAuth = true ∧ eeaCOUNT r.handler .upLink = [0, 0, 0, 1] ∧ eeaCOUNT Sample.keyed .upLink = [0, 0, 0, 0] ∧
      (decSecNASWith Sample.shiftCipher r.handler .upLink (.ofList out) (UInt64.ofNat out.length)).toOption.map
        (fun m => (m.1, m.2.protocolDiscriminator)) = some (true, 6) := by
  refine ⟨Sample.shiftCipher_inverts, _, _, _, rfl, rfl, ?_, ?_, ?_, ?_⟩
  · decide +kernel
  · decide +kernel
  · decide +kernel
  · decide +kernel

/-- With the null algorithm the same message is accepted, and deciphered with the COUNT 1 as well. -/
theorem deciphering_count_iff_complete :
    ∃ ue' out r, newNASMsgSecWith Prims.zeroKasme .null Sample.keyed 7
        .integrityProtectedAndCipheredWithNewEPSSecurityContext .upLink [7, 0x5E] = .ok (some (ue', out)) ∧
      nasAuthenticateMsg Prims.zeroKasme Sample.keyed (.ofList out) (UInt32.ofNat out.length) .upLink = .ok r ∧
      r.isAuth = true ∧ eeaCOUNT r.handler .upLink ≠ eeaCOUNT Sample.keyed .upLink := by
  have hsend : newNASMsgSecWith Prims.zeroKasme .null Sample.keyed 7
      .integrityProtectedAndCipheredWithNewEPSSecurityContext .upLink [7, 0x5E] =
        .ok (some (_, [0x47, 0, 0, 0, 0, 0, 7, 0x5E])) := rfl
  have hauth : nasAuthenticateMsg Prims.zeroKasme Sample.keyed (.ofList [0x47, 0, 0, 0, 0, 0, 7, 0x5E]) 8 .upLink =
      .ok ⟨1, true, nasSetCOUNT Sample.keyed .upLink 0⟩ := rfl
  refine ⟨_, _, _, hsend, hauth, rfl, fun heq => ?_⟩
  have hiff := deciphering_count_iff (Prims.ofAnswers_blockSized _ _ _) rfl hsend (fun _ _ => rfl) hauth
  exact absurd (hiff.mp (fun _ => heq) rfl).1 (by decide)

end AaltoMME.NAS
