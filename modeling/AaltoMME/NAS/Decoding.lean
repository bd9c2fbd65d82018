import AaltoMME.NAS.Messages

/-!
# What the decoders leave alone

A decoder of a message writes behind the message type.  The header of the decoded image is therefore
the one that `dec_NAS` stored, whatever the message holds.
-/

namespace AaltoMME.NAS

open Base

variable {msg : GenericNASMsg} {buf : Mem} {size : UInt64} {i off pos : Nat}

theorem decLv_of_lt (h : i < off) : decLv msg buf off pos i = msg i := by
  unfold decLv
  rw [Mem.copy_of_lt _ _ _ _ _ (by omega), Mem.set_of_ne _ _ _ _ (by omega)]

theorem decLvE_of_lt (h : i < off) : decLvE msg buf off pos i = msg i := by
  unfold decLvE
  rw [Mem.copy_of_lt _ _ _ _ _ (by omega), Mem.set_of_ne _ _ _ _ (by omega),
    Mem.set_of_ne _ _ _ _ (by omega)]

theorem decOptionals_of_lt {optionals : Nat} (h : i < optionals) (kinds : List OptKind) (st : OptState) :
    (decOptionals optionals buf kinds st).msg i = st.msg i := by
  unfold decOptionals
  induction kinds generalizing st with
  | nil => rfl
  | cons kind kinds ih =>
    rw [List.foldl_cons, ih]
    cases kind with
    | tlv type =>
      simp only [decNASOptTlv]
      split
      · rfl
      · split
        · exact Mem.copy_of_lt _ _ _ _ _ (by omega)
        · rfl
    | tvT3 type len =>
      simp only [decNASOptTvT3]
      split
      · rfl
      · split
        · exact Mem.copy_of_lt _ _ _ _ _ (by omega)
        · rfl
    | tvT1 type valueMask =>
      simp only [decNASOptTvT1]
      split
      · rfl
      · split
        · exact Mem.set_of_ne _ _ _ _ (by omega)
        · rfl

/-- The mandatory elements of an Attach Request: identity, UE network capability and ESM message. -/
def attachRequestMandatory (msg : GenericNASMsg) (buf : Mem) : GenericNASMsg :=
  let msg := (msg.setLow 3 (buf 0 &&& 0x0F)).setHigh 4 ((buf 0 &&& 0xF0) >>> 4)
  let capPos := 2 + (buf 1).toNat
  decLvE (decLv (decLv msg buf 5 1) buf 261 capPos) buf 517 (capPos + 1 + (buf capPos).toNat)

theorem decAttachRequest_of_lt (h : i < attachRequestOptionals) :
    decAttachRequest msg buf size i = attachRequestMandatory msg buf i := by
  unfold decAttachRequest
  split
  · rfl
  · exact decOptionals_of_lt h _ _

theorem attachRequestMandatory_of_lt (h : i < 3) : attachRequestMandatory msg buf i = msg i := by
  rw [attachRequestMandatory, decLvE_of_lt (by omega), decLv_of_lt (by omega), decLv_of_lt (by omega),
    Mem.setHigh_of_ne _ _ _ _ (by omega), Mem.setLow_of_ne _ _ _ _ (by omega)]

theorem decTrackingAreaUpdateRequest_of_lt (h : i < 3) : decTrackingAreaUpdateRequest msg buf size i = msg i := by
  have hmandatory : decLv ((msg.setLow 3 (buf 0 &&& 0x0F)).setHigh 4 ((buf 0 &&& 0xF0) >>> 4)) buf 5 1 i = msg i := by
    rw [decLv_of_lt (by omega), Mem.setHigh_of_ne _ _ _ _ (by omega), Mem.setLow_of_ne _ _ _ _ (by omega)]
  unfold decTrackingAreaUpdateRequest
  split
  · exact hmandatory
  · exact (decOptionals_of_lt (by unfold trackingAreaUpdateRequestOptionals; omega) _ _).trans hmandatory

theorem decAuthenticationFailure_of_lt (h : i < 3) : decAuthenticationFailure msg buf size i = msg i := by
  unfold decAuthenticationFailure
  split_ifs
  · exact Mem.set_of_ne _ _ _ _ (by omega)
  · rw [Mem.copy_of_lt _ _ _ _ _ (by omega), Mem.set_of_ne _ _ _ _ (by omega)]
  · exact Mem.set_of_ne _ _ _ _ (by omega)

theorem ite_mem_apply {c : Prop} [Decidable c] {m m' : Mem} {v : UInt8} (hm : m i = v) (hm' : m' i = v) :
    (if c then m else m') i = v := by
  by_cases hc : c
  · rw [if_pos hc]
    exact hm
  · rw [if_neg hc]
    exact hm'

/-- The decoders write behind the message type, which `dec_EMM` stores. -/
theorem decEMM_of_lt_three (h : i < 3) : decEMM msg buf size i = msg.set 2 (buf 0) i := by
  refine ite_mem_apply ?_ (ite_mem_apply ?_ (ite_mem_apply ?_ (ite_mem_apply ?_ (ite_mem_apply ?_ (ite_mem_apply ?_
    (ite_mem_apply ?_ (ite_mem_apply ?_ (ite_mem_apply ?_ rfl))))))))
  · exact (decAttachRequest_of_lt (by unfold attachRequestOptionals; omega)).trans (attachRequestMandatory_of_lt h)
  · rw [decAttachAccept, decLvE_of_lt (by omega), decLv_of_lt (by omega), Mem.set_of_ne _ _ _ _ (by omega),
      Mem.setLow_of_ne _ _ _ _ (by omega)]
  · exact decLvE_of_lt h
  · exact Mem.set_of_ne _ _ _ _ (by omega)
  · rw [decDetachRequestUEOrig, decLv_of_lt (by omega), Mem.setHigh_of_ne _ _ _ _ (by omega),
      Mem.setLow_of_ne _ _ _ _ (by omega)]
  · exact decTrackingAreaUpdateRequest_of_lt h
  · exact decLv_of_lt h
  · exact decAuthenticationFailure_of_lt h
  · exact decLv_of_lt h

theorem decEMM_of_lt (h : i < 2) : decEMM msg buf size i = msg i := by
  rw [decEMM_of_lt_three (by omega), Mem.set_of_ne _ _ _ _ (by omega)]

/-- The same for an ESM message, whose type is one octet further on. -/
theorem decESM_of_lt_four (h : i < 4) : decESM msg buf size i = (msg.set 2 (buf 0)).set 3 (buf 1) i := by
  unfold decESM
  split
  · have hmandatory : ∀ m : GenericNASMsg, (m.setLow 4 (buf.shift 2 0 &&& 0x0F)).setHigh 5
        ((buf.shift 2 0 &&& 0xF0) >>> 4) i = m i := fun m => by
      rw [Mem.setHigh_of_ne _ _ _ _ (by omega), Mem.setLow_of_ne _ _ _ _ (by omega)]
    unfold decPDNConnectivityRequest
    split
    · exact hmandatory _
    · exact (decOptionals_of_lt (by unfold pdnConnectivityRequestOptionals; omega) _ _).trans (hmandatory _)
  · rfl

theorem decESM_of_lt (h : i < 2) : decESM msg buf size i = msg i := by
  rw [decESM_of_lt_four (by omega), Mem.set_of_ne _ _ _ _ (by omega), Mem.set_of_ne _ _ _ _ (by omega)]

theorem decNAS_header {s : SecurityHeaderType} {p : UInt8}
    (h : nasGetHeader buf size.toUInt32 = some (s, p)) :
    (decNAS buf size).2 0 = p ∧ (decNAS buf size).2 1 = s.octet <<< 4 := by
  simp only [decNAS, h]
  split_ifs
  · simp [Mem.set]
  · dsimp only
    rw [decEMM_of_lt Nat.zero_lt_two, decEMM_of_lt Nat.one_lt_two]
    simp [Mem.set]
  · dsimp only
    rw [decESM_of_lt Nat.zero_lt_two, decESM_of_lt Nat.one_lt_two]
    simp [Mem.set]

/-! ## The header of an ESM message -/

/-- `plain.eSM.bearerIdendity`: the nibble of the security header type. -/
def GenericNASMsg.esmBearerIdendity (m : GenericNASMsg) : UInt8 := m 1 >>> 4

/-- `nasIe_v_t1_l` and `nasIe_v_t1_h`: two values of four bits in one octet. -/
def nasIeVT1 (low high : UInt8) : UInt8 := (low &&& (0x0F : UInt8)) ||| (high <<< (4 : UInt8))

/-- `newNASMsg_ESM`. -/
def newNASMsgESM (protocolDiscriminator ePSBearerId : UInt8) : List UInt8 := [nasIeVT1 protocolDiscriminator ePSBearerId]

/-- `encaps_ESM`. -/
def encapsESM (procedureTransactionIdentity messageType : UInt8) : List UInt8 :=
  [procedureTransactionIdentity, messageType]

def esmMessage (ebi pti type : UInt8) (body : List UInt8) : List UInt8 :=
  newNASMsgESM epsSessionManagementMessages ebi ++ encapsESM pti type ++ body

/-- `dec_NAS` accepts the buffer and returns this header. -/
def DecodesESM (ebi pti type : UInt8) (octets : List UInt8) : Prop :=
  ∃ m : GenericNASMsg, decNAS (.ofList octets) (UInt64.ofNat octets.length) = (true, m) ∧
    m.esmBearerIdendity = ebi ∧ m.esmProcedureTransactionIdentity = pti ∧ m.esmMessageType = type

theorem ofNibble_eq_plainNAS_iff {v : UInt8} : SecurityHeaderType.ofNibble v = .plainNAS ↔ v = 0 := by
  constructor
  · intro h
    unfold SecurityHeaderType.ofNibble at h
    split_ifs at h with hv
    exact hv
  · rintro rfl
    rfl

/-- Only a plain header is decoded, whatever the discriminator. -/
theorem decNAS_fst_iff : (decNAS buf size).1 = true ↔ ¬ size.toUInt32 < 1 ∧ (buf 0 &&& 0xF0) >>> 4 = 0 := by
  by_cases hsize : size.toUInt32 < 1
  · simp [decNAS, nasGetHeader, hsize]
  · simp only [decNAS, nasGetHeader, if_neg hsize, ne_eq, ofNibble_eq_plainNAS_iff]
    split_ifs with hv <;> simp [hsize, hv]

theorem esmHeader_nibbles {ebi : UInt8} (h : ebi < 16) :
    (nasIeVT1 epsSessionManagementMessages ebi &&& 0xF0) >>> 4 = ebi ∧
      nasIeVT1 epsSessionManagementMessages ebi &&& 0x0F = epsSessionManagementMessages := by
  have hall : ∀ n : Fin 16, (nasIeVT1 epsSessionManagementMessages (UInt8.ofNat n) &&& 0xF0) >>> 4 = UInt8.ofNat n ∧
      nasIeVT1 epsSessionManagementMessages (UInt8.ofNat n) &&& 0x0F = epsSessionManagementMessages := by decide
  have hebi := hall ⟨ebi.toNat, UInt8.lt_iff_toNat_lt.mp h⟩
  rwa [UInt8.ofNat_toNat] at hebi

theorem decodesESM_zero {pti type : UInt8} {body : List UInt8} (h : ¬ (UInt64.ofNat (body.length + 3)).toUInt32 < 1) :
    DecodesESM 0 pti type (esmMessage 0 pti type body) := by
  have hfirst : Mem.ofList (esmMessage 0 pti type body) 0 = nasIeVT1 epsSessionManagementMessages 0 := rfl
  have hheader : nasGetHeader (.ofList (esmMessage 0 pti type body)) (UInt64.ofNat (body.length + 3)).toUInt32 =
      some (.plainNAS, epsSessionManagementMessages) := by
    rw [nasGetHeader, if_neg h, hfirst, (esmHeader_nibbles (by decide)).1, (esmHeader_nibbles (by decide)).2,
      ofNibble_eq_plainNAS_iff.mpr rfl]
  have hdec : decNAS (.ofList (esmMessage 0 pti type body)) (UInt64.ofNat (body.length + 3)) =
      (true, decESM ((Mem.zero.set 0 epsSessionManagementMessages).set 1 (SecurityHeaderType.plainNAS.octet <<< 4))
        ((Mem.ofList (esmMessage 0 pti type body)).shift 1) (UInt64.ofNat (body.length + 3) - 1)) := by
    simp only [decNAS, hheader]
    exact if_neg (by decide)
  refine ⟨_, hdec, ?_, ?_, ?_⟩
  · rw [GenericNASMsg.esmBearerIdendity, decESM_of_lt Nat.one_lt_two]
    rfl
  · rw [GenericNASMsg.esmProcedureTransactionIdentity, decESM_of_lt_four (by decide)]
    rfl
  · rw [GenericNASMsg.esmMessageType, decESM_of_lt_four (by decide)]
    rfl

theorem toUInt32_lt_one_iff {n : UInt64} : n.toUInt32 < 1 ↔ n.toNat % 4294967296 = 0 := Nat.lt_one_iff

/-- A message on the bearer `ebi` is decoded if this is 0, and a buffer with another discriminator is refused if the
nibble of the security header type is not 0. -/
theorem esm_header_iff (ebi pti type : UInt8) (body : List UInt8) (buf : Mem) (size : UInt64) :
    (ebi < 16 → (DecodesESM ebi pti type (esmMessage ebi pti type body) ↔
      ebi = 0 ∧ (body.length + 3) % 4294967296 ≠ 0)) ∧
    (buf 0 &&& 0x0F ≠ epsSessionManagementMessages → buf 0 &&& 0x0F ≠ epsMobilityManagementMessages →
      ((decNAS buf size).1 = false ↔ (buf 0 &&& 0xF0) >>> 4 ≠ 0 ∨ size.toNat % 4294967296 = 0)) := by
  have hsize : (UInt64.ofNat (body.length + 3)).toUInt32 < 1 ↔ (body.length + 3) % 4294967296 = 0 := by
    rw [toUInt32_lt_one_iff, UInt64.toNat_ofNat', Nat.mod_mod_of_dvd _ (by decide)]
  refine ⟨fun hebi => ⟨?_, ?_⟩, fun _ _ => ?_⟩
  · rintro ⟨m, hdec, -⟩
    have htrue := decNAS_fst_iff.mp (congrArg Prod.fst hdec)
    exact ⟨(esmHeader_nibbles hebi).1.symm.trans htrue.2, mt hsize.mpr htrue.1⟩
  · rintro ⟨rfl, hne⟩
    exact decodesESM_zero (mt hsize.mp hne)
  · rw [← Bool.not_eq_true, decNAS_fst_iff, toUInt32_lt_one_iff]
    tauto

/-- The UE accepts the bearer 5, and a message that no NAS protocol has. -/
theorem not_esm_header : ¬ DecodesESM 5 1 activateDefaultEPSBearerContextAccept
      (esmMessage 5 1 activateDefaultEPSBearerContextAccept []) ∧
    (decNAS (.ofList [0x06, 0, 0]) 3).1 = true := by
  refine ⟨?_, by decide⟩
  rintro ⟨m, hdec, -⟩
  have hfst : (decNAS (.ofList (esmMessage 5 1 activateDefaultEPSBearerContextAccept [])) 3).1 = false := by decide
  rw [show decNAS (.ofList (esmMessage 5 1 activateDefaultEPSBearerContextAccept [])) 3 = (true, m) from hdec] at hfst
  cases hfst

/-- The PDN Connectivity Request. -/
theorem esm_header_pdnConnectivityRequest : DecodesESM 0 1 pdnConnectivityRequest (esmMessage 0 1 pdnConnectivityRequest [0x31]) :=
  ((esm_header_iff 0 1 pdnConnectivityRequest [0x31] .zero 0).1 (by decide)).mpr ⟨rfl, by decide⟩

end AaltoMME.NAS
