import AaltoMME.EMM.Send
import AaltoMME.S1AP.Lists
import AaltoMME.S1AP.Values

/-!
# The InitialContextSetupRequest

`ecm_sendCtxtSUReq` makes a message of six IEs, one of which is a list of E-RABs.  The items of the list are
IEs on their own, so that an item is an open type within an open type within the open type of the message.
The octets that `s1ap_encode` writes for such a message are decoded by `s1ap_decode` to the same ids, bit
rates, E-RAB, capabilities and key.
-/

namespace AaltoMME.S1AP

open Base PER

/-! ## Values -/

/-- The values of the IEs. -/
inductive S1APValue
  | mMEUES1APID (mmeId : Nat)
  | eNBUES1APID (eNBId : Nat)
  | uEAggregateMaximumBitrate (v : UEAggregateMaximumBitrate)
  | eRABToBeSetupItemCtxtSUReq (v : ERABToBeSetupItemCtxtSUReq)
  | uESecurityCapabilities (v : UESecurityCapabilities)
  | securityKey (key : List UInt8)
  | eRABToBeSetupListCtxtSUReq (item : List (ProtocolIE (Option S1APValue)))

/-- `enc_E_RABToBeSetupListCtxtSUReq`. -/
def encERABToBeSetupListCtxtSUReq (codecs : Codecs S1APValue) (bytes : BinaryData)
    (item : List (ProtocolIE (Option S1APValue))) : BinaryData :=
  encList codecs maxNrOfERABs bytes item

/-- `dec_E_RABToBeSetupListCtxtSUReq`. -/
def decERABToBeSetupListCtxtSUReq (codecs : Codecs S1APValue) (junk : BinaryData → Mem) :
    Decoder (List (ProtocolIE (Option S1APValue))) :=
  decList codecs junk maxNrOfERABs

/-! ## The tables -/

/-- The entries of `getenc_S1AP_IE` and `getdec_S1AP_IE` for these IEs, except the list. -/
def leafCodecs : Codecs S1APValue where
  enc
    | 0 => some fun bytes v => match v with
      | .mMEUES1APID mmeId => encodeConstrainedNumber bytes mmeId 0 4294967295
      | _ => bytes
    | 8 => some fun bytes v => match v with
      | .eNBUES1APID eNBId => encodeConstrainedNumber bytes eNBId 0 16777215
      | _ => bytes
    | 52 => some fun bytes v => match v with
      | .eRABToBeSetupItemCtxtSUReq v => v.encode bytes
      | _ => bytes
    | 66 => some fun bytes v => match v with
      | .uEAggregateMaximumBitrate v => v.encode bytes
      | _ => bytes
    | 73 => some fun bytes v => match v with
      | .securityKey key => setoctets bytes key
      | _ => bytes
    | 107 => some fun bytes v => match v with
      | .uESecurityCapabilities v => v.encode bytes
      | _ => bytes
    | _ => none
  dec
    | 0 => some (StateT.run' (decodeConstrainedNumber 0 4294967295 >>= fun v => pure (.mMEUES1APID v)))
    | 8 => some (StateT.run' (decodeConstrainedNumber 0 16777215 >>= fun v => pure (.eNBUES1APID v)))
    | 52 => some (StateT.run' (ERABToBeSetupItemCtxtSUReq.decode >>= fun v => pure (.eRABToBeSetupItemCtxtSUReq v)))
    | 66 => some (StateT.run' (UEAggregateMaximumBitrate.decode >>= fun v => pure (.uEAggregateMaximumBitrate v)))
    -- the key stays zero when there are not enough octets
    | 73 => some (StateT.run' (getoctets 32 >>= fun v => pure (.securityKey (v.getD (List.replicate 32 0)))))
    | 107 => some (StateT.run' (UESecurityCapabilities.decode >>= fun v => pure (.uESecurityCapabilities v)))
    | _ => none

/-- The tables with the list, which calls the tables again.  The calls are bounded by a depth. -/
def ieCodecs (junk : BinaryData → Mem) : Nat → Codecs S1APValue
  | 0 => leafCodecs
  | n + 1 =>
    { enc := fun id => if id = 24 then some fun bytes v => match v with
          | .eRABToBeSetupListCtxtSUReq item => encERABToBeSetupListCtxtSUReq (ieCodecs junk n) bytes item
          | _ => bytes
        else leafCodecs.enc id
      dec := fun id => if id = 24 then some (StateT.run' (decERABToBeSetupListCtxtSUReq (ieCodecs junk n) junk >>=
          fun v => pure (.eRABToBeSetupListCtxtSUReq v)))
        else leafCodecs.dec id }

/-! ## Round trips -/

section RoundTrips

variable {V : Type} {codecs : Codecs V} {ie : ProtocolIE V} {n : Nat}

/-- An IE that comes back, with a bound on the size of its value in bits. -/
structure Codecs.Fits (codecs : Codecs V) (ie : ProtocolIE V) (n : Nat) : Prop extends codecs.RoundTrips ie where
  bits : 8 * (codecs.octets ie).length < n + 8

theorem Codecs.Fits.of_codes {e : BinaryData → V → BinaryData} {x : Decoder V} {f : BitFormat}
    (h : Codes (e · ie.value) x ie.value f n) (henc : codecs.enc ie.id = some e)
    (hdec : codecs.dec ie.id = some (StateT.run' x)) (hcrit : ie.criticality ≤ 2) (hn : n ≤ 8 * 4095) :
    codecs.Fits ie n := by
  have hoctets : codecs.octets ie = (e .empty ie.value).octets := by simp only [Codecs.octets, henc]
  have hstop := h.size 0
  have hlength : (codecs.octets ie).length = octetsFor (f.stop 0) := by
    rw [hoctets, BinaryData.octets, Mem.length_read, h.encodes.length_empty, UInt32.toNat_ofNat',
      Nat.mod_eq_of_lt (by omega)]
  have hlt := octetsFor_lt (f.stop 0)
  refine ⟨⟨hcrit, by rw [henc]; rfl, by omega, StateT.run' x, hdec, fun junk => ?_⟩, by omega⟩
  obtain ⟨d, hd⟩ := run_localBuffer h.encodes h.decodes (by omega) junk
  rw [hoctets]
  exact congrArg (Functor.map Prod.fst) hd

theorem Codecs.Fits.atMost_ieFormat (h : codecs.Fits ie n) : (codecs.ieFormat ie).AtMost (n + 195) := by
  have hbits := h.bits
  have hlength := length_lengthOctets_le (codecs.octets ie).length
  have hopen := (atMost_octetsFormat (lengthOctets (codecs.octets ie).length)).seq
    (atMost_octetsFormat (codecs.octets ie))
  exact ((atMost_numberFormat ie.id.toNat 0 65535).seq ((atMost_numberFormat ie.criticality 0 2).seq hopen)).mono
    (by omega)

end RoundTrips

/-! ### The IEs of the request -/

section IEs

variable (junk : BinaryData → Mem) (n : Nat)

theorem fits_mMEUES1APID (mmeUEId : UInt32) :
    (ieCodecs junk (n + 1)).Fits ⟨0, 0, .mMEUES1APID mmeUEId.toNat⟩ 79 := by
  have hlt := mmeUEId.toNat_lt
  have hcodes := codes_number (Nat.zero_le mmeUEId.toNat) (show _ ≤ 4294967295 by omega) (by omega) (.inr rfl)
  exact .of_codes (hcodes.map S1APValue.mMEUES1APID) rfl rfl (Nat.zero_le 2) (by decide)

theorem fits_eNBUES1APID {eNBUEId : UInt32} (h : eNBUEId.toNat < 2 ^ 24) :
    (ieCodecs junk (n + 1)).Fits ⟨8, 0, .eNBUES1APID eNBUEId.toNat⟩ 79 := by
  have hcodes := codes_number (Nat.zero_le eNBUEId.toNat) (show _ ≤ 16777215 by omega) (by omega) (.inr rfl)
  exact .of_codes (hcodes.map S1APValue.eNBUES1APID) rfl rfl (Nat.zero_le 2) (by decide)

theorem fits_uEAggregateMaximumBitrate {dl ul : Nat} (hdl : dl < 2 ^ 32) (hul : ul < 2 ^ 32) :
    (ieCodecs junk (n + 1)).Fits ⟨66, 0, .uEAggregateMaximumBitrate (.ofRates dl ul)⟩ 160 := by
  obtain ⟨f, hcodes⟩ := UEAggregateMaximumBitrate.codes hdl hul
  exact .of_codes (hcodes.map S1APValue.uEAggregateMaximumBitrate) rfl rfl (Nat.zero_le 2) (by decide)

theorem fits_uESecurityCapabilities (eea eia : UInt16) :
    (ieCodecs junk (n + 1)).Fits ⟨107, 0, .uESecurityCapabilities (.ofAlgorithms eea eia)⟩ 36 := by
  obtain ⟨f, hcodes⟩ := UESecurityCapabilities.codes eea eia
  exact .of_codes (hcodes.map S1APValue.uESecurityCapabilities) rfl rfl (Nat.zero_le 2) (by decide)

theorem fits_securityKey {key : List UInt8} (h : key.length = 32) :
    (ieCodecs junk (n + 1)).Fits ⟨73, 0, .securityKey key⟩ 263 := by
  have hget := decodes_getoctets key
  have hsize := atMost_octetsFormat key
  rw [h] at hget hsize
  exact .of_codes ⟨encodes_setoctets key,
    hget.map fun v => S1APValue.securityKey (v.getD (List.replicate 32 0)), hsize⟩ rfl rfl (Nat.zero_le 2) (by decide)

variable {id : Nat} {qos : Nat × AllocationAndRetentionPriority} {address : TransportLayerAddress}
  {teid : List UInt8} {pdu : Option (List UInt8)}

theorem fits_item (h : ERABToBeSetupItemCtxtSUReq.Bounded id qos address teid pdu) : (ieCodecs junk n).Fits
    ⟨52, 0, .eRABToBeSetupItemCtxtSUReq (.ofBearer id qos address teid pdu)⟩ 17000 := by
  have henc : (ieCodecs junk n).enc 52 = leafCodecs.enc 52 := by cases n <;> rfl
  have hdec : (ieCodecs junk n).dec 52 = leafCodecs.dec 52 := by cases n <;> rfl
  obtain ⟨f, hcodes⟩ := ERABToBeSetupItemCtxtSUReq.codes h
  exact .of_codes (hcodes.map S1APValue.eRABToBeSetupItemCtxtSUReq) henc hdec (Nat.zero_le 2) (by decide)

theorem fits_list (h : ERABToBeSetupItemCtxtSUReq.Bounded id qos address teid pdu) : (ieCodecs junk (n + 1)).Fits
    ⟨24, 0, .eRABToBeSetupListCtxtSUReq
      [⟨52, 0, some (.eRABToBeSetupItemCtxtSUReq (.ofBearer id qos address teid pdu))⟩]⟩ 17400 := by
  have hitem := fits_item junk n h
  generalize S1APValue.eRABToBeSetupItemCtxtSUReq (.ofBearer id qos address teid pdu) = item at hitem ⊢
  have hies : ∀ ie ∈ [(⟨52, 0, item⟩ : ProtocolIE S1APValue)], (ieCodecs junk n).RoundTrips ie := fun ie hie => by
    rw [List.mem_singleton.mp hie]
    exact hitem.toRoundTrips
  have hencodes := encodes_encList maxNrOfERABs hies
  have hdecodes := (decodes_decList junk hies (by simp) (by decide) (show 1 < 256 by decide)
    (show 1 < 256 by decide)).map S1APValue.eRABToBeSetupListCtxtSUReq
  have hsize : (listFormat (ieCodecs junk n) maxNrOfERABs [⟨52, 0, item⟩]).AtMost 17400 :=
    ((atMost_numberFormat 1 1 maxNrOfERABs).seq (hitem.atMost_ieFormat.seq BitFormat.atMost_nil)).mono (by omega)
  have henc : (ieCodecs junk (n + 1)).enc 24 = some fun bytes v => match v with
      | .eRABToBeSetupListCtxtSUReq item => encERABToBeSetupListCtxtSUReq (ieCodecs junk n) bytes item
      | _ => bytes := by
    simp only [ieCodecs, if_true]
  have hdec : (ieCodecs junk (n + 1)).dec 24 = some (StateT.run' (decERABToBeSetupListCtxtSUReq (ieCodecs junk n) junk
      >>= fun v => pure (.eRABToBeSetupListCtxtSUReq v))) := by
    simp only [ieCodecs, if_true]
  exact .of_codes ⟨hencodes, hdecodes, hsize⟩ henc hdec (Nat.zero_le 2) (by decide)

end IEs

/-! ## The message -/

/-- The message of `ecm_sendCtxtSUReq`. -/
def ctxtSUReqMessage (mmeUEId eNBUEId : UInt32) (req : CtxtSUReq) : Message S1APValue where
  choice := 0
  extension := 0
  pdu :=
    { procedureCode := 9
      criticality := 0
      ext := 0
      value := [
        ⟨0, 0, .mMEUES1APID mmeUEId.toNat⟩,
        ⟨8, 0, .eNBUES1APID eNBUEId.toNat⟩,
        ⟨66, 0, .uEAggregateMaximumBitrate (.ofRates req.ambrDl.toNat req.ambrUl.toNat)⟩,
        ⟨24, 0, .eRABToBeSetupListCtxtSUReq [⟨52, 0, some (.eRABToBeSetupItemCtxtSUReq
          (.ofBearer req.eRABId.toNat (9, { priorityLevel := 15 })
            ⟨0, 8 * req.transportLayerAddress.length, req.transportLayerAddress⟩ req.gtpTEID req.nasPdu))⟩]⟩,
        ⟨107, 0, .uESecurityCapabilities
          (.ofAlgorithms req.encryptionAlgorithms req.integrityProtectionAlgorithms)⟩,
        ⟨73, 0, .securityKey req.securityKey⟩] }

/-- The contents of a request that fit their types: bit rates of 32 bits, an address of whole octets, an E-RAB
identity without extension, a key of 32 octets and a NAS PDU of at most 2000. -/
structure FitsTypes (req : CtxtSUReq) : Prop where
  ambrDl : req.ambrDl.toNat < 2 ^ 32
  ambrUl : req.ambrUl.toNat < 2 ^ 32
  eRABId : req.eRABId.toNat ≤ 15
  addressNonempty : req.transportLayerAddress ≠ []
  address : req.transportLayerAddress.length ≤ 20
  teid : req.gtpTEID.length = 4
  key : req.securityKey.length = 32
  pdu : ∀ str ∈ req.nasPdu, str.length ≤ 2000

theorem FitsTypes.bounded {req : CtxtSUReq} (h : FitsTypes req) : ERABToBeSetupItemCtxtSUReq.Bounded req.eRABId.toNat
    (9, { priorityLevel := 15 }) ⟨0, 8 * req.transportLayerAddress.length, req.transportLayerAddress⟩ req.gtpTEID
    req.nasPdu where
  id := h.eRABId
  qCI := by decide
  arp := ⟨by decide, by decide, by decide, by decide, by decide⟩
  address := ⟨Nat.zero_lt_succ 1, h.addressNonempty, h.address, rfl⟩
  teid := h.teid
  pdu := h.pdu

theorem frames_ctxtSUReqMessage (junk : BinaryData → Mem) (n : Nat) (mmeUEId : UInt32) {eNBUEId : UInt32}
    (hid : eNBUEId.toNat < 2 ^ 24) {req : CtxtSUReq} (h : FitsTypes req) :
    (ieCodecs junk (n + 1)).Frames (ctxtSUReqMessage mmeUEId eNBUEId req) := by
  have hmme := fits_mMEUES1APID junk n mmeUEId
  have henb := fits_eNBUES1APID junk n hid
  have hambr := fits_uEAggregateMaximumBitrate junk n h.ambrDl h.ambrUl
  have hlist := fits_list junk n h.bounded
  have hsec := fits_uESecurityCapabilities junk n req.encryptionAlgorithms req.integrityProtectionAlgorithms
  have hkey := fits_securityKey junk n h.key
  have hies : ∀ ie ∈ (ctxtSUReqMessage mmeUEId eNBUEId req).pdu.value, (ieCodecs junk (n + 1)).RoundTrips ie := by
    intro ie hie
    simp only [ctxtSUReqMessage, List.mem_cons, List.not_mem_nil, or_false] at hie
    rcases hie with rfl | rfl | rfl | rfl | rfl | rfl
    · exact hmme.toRoundTrips
    · exact henb.toRoundTrips
    · exact hambr.toRoundTrips
    · exact hlist.toRoundTrips
    · exact hsec.toRoundTrips
    · exact hkey.toRoundTrips
  have hsize : ((ieCodecs junk (n + 1)).procedureFormat (ctxtSUReqMessage mmeUEId eNBUEId req).pdu).AtMost 19267 :=
    (atMost_natBits 1 0).seq ((atMost_numberFormat 6 0 65535).seq (hmme.atMost_ieFormat.seq
      (henb.atMost_ieFormat.seq (hambr.atMost_ieFormat.seq (hlist.atMost_ieFormat.seq
        (hsec.atMost_ieFormat.seq (hkey.atMost_ieFormat.seq BitFormat.atMost_nil)))))))
  refine ⟨by simp [ctxtSUReqMessage], by simp [ctxtSUReqMessage], hies, ?_⟩
  have hstop := hsize 0
  have hlt := octetsFor_lt
    (((ieCodecs junk (n + 1)).procedureFormat (ctxtSUReqMessage mmeUEId eNBUEId req).pdu).stop 0)
  rw [Codecs.container, (encodes_encElementaryProcedure hies).encPos_empty]
  omega

/-! ## The request of a context -/

section Context

variable {P : Prims} {x : Env} {c emm : EMMCtx} {e : ECMSession} {id first : Nat} {rest : List Nat}
  {session : EPSSession} {bearer : BearerContext} {pdu : Option (List UInt8)}

/-- What `ecm_sendCtxtSUReq` takes from the context, the bearer and the message. -/
def requestOf (P : Prims) (emm : EMMCtx) (bearer : BearerContext) (pdu : Option (List UInt8)) : CtxtSUReq where
  ambrDl := emm.subs.ambrDl
  ambrUl := emm.subs.ambrUl
  nasPdu := pdu.filter (· ≠ [])
  eRABId := bearer.ebi
  transportLayerAddress := bearer.s1uSgw.addr
  gtpTEID := bearer.s1uSgw.teid
  encryptionAlgorithms := (emm.ueCapabilities.getD 0 0).toUInt16 <<< 8
  integrityProtectionAlgorithms := (emm.ueCapabilities.getD 1 0).toUInt16 <<< 8
  securityKey := emm.emmGetKeNB P

theorem ecmSendCtxtSUReq_of_session (hecm : c.ecm = some id) (he : x.ecms id = some e) (hemm : c.ofEcm x e = .ok emm)
    (hsession : c.session first = .ok session) (hbearer : c.bearer session.defaultBearer = .ok bearer) :
    c.ecmSendCtxtSUReq P x pdu (first :: rest) =
      .ok (c.log (.ctxtSUReq id c.sci emm.nasUlCountForSC (requestOf P emm bearer pdu))) := by
  have hderef : c.derefEcm x = .ok e := deref_eq_ok.mpr ⟨id, hecm, he⟩
  simp only [EMMCtx.ecmSendCtxtSUReq, hecm, hderef, ok_bind, hemm, hsession, hbearer]
  rfl

theorem length_addr_of_ipv4 {f : Fteid} (hlen : 9 ≤ f.length) (hv4 : f.ipv4 = true) (hv6 : f.ipv6 = false) :
    f.addr.length = 4 := by
  simp [Fteid.addr, Fteid.len, hv4, hv6]
  omega

theorem fitsTypes_requestOf (hdl : emm.subs.ambrDl.toNat < 2 ^ 32) (hul : emm.subs.ambrUl.toNat < 2 ^ 32)
    (hlen : 9 ≤ bearer.s1uSgw.length) (hv4 : bearer.s1uSgw.ipv4 = true) (hv6 : bearer.s1uSgw.ipv6 = false)
    (hebi : bearer.ebi.toNat ≤ 15) (hkey : (emm.emmGetKeNB P).length = 32) (hpdu : ∀ m ∈ pdu, m.length ≤ 2000) :
    FitsTypes (requestOf P emm bearer pdu) where
  ambrDl := hdl
  ambrUl := hul
  eRABId := hebi
  addressNonempty hnil := by
    have haddr := length_addr_of_ipv4 hlen hv4 hv6
    rw [show bearer.s1uSgw.addr = [] from hnil] at haddr
    cases haddr
  address := by
    show bearer.s1uSgw.addr.length ≤ 20
    rw [length_addr_of_ipv4 hlen hv4 hv6]
    decide
  teid := by
    show bearer.s1uSgw.teid.length = 4
    simp [Fteid.teid]
    omega
  key := hkey
  pdu str hstr := hpdu str (Option.mem_filter_iff.mp hstr).1

/-- What the eNB decodes: the ids of the ECM session, the bit rates of the subscription, one E-RAB with the
identity of the bearer, the IPv4 address and the TEID of the gateway and the NAS PDU, if there is one, the
capabilities of the UE and the key. -/
theorem ctxtSUReq_faithful (P : Prims) (x : Env) (c : EMMCtx) {emm : EMMCtx} {e : ECMSession} {id first : Nat}
    (rest : List Nat) {session : EPSSession} (bearer : BearerContext) (pdu : Option (List UInt8))
    (junk : BinaryData → Mem) (n : Nat) (hecm : c.ecm = some id)
    (he : x.ecms id = some e) (hemm : c.ofEcm x e = .ok emm) (hsession : c.session first = .ok session)
    (hbearer : c.bearer session.defaultBearer = .ok bearer) (henb : e.eNBUEId.toNat < 2 ^ 24)
    (hdl : emm.subs.ambrDl.toNat < 2 ^ 32) (hul : emm.subs.ambrUl.toNat < 2 ^ 32)
    (hlen : 9 ≤ bearer.s1uSgw.length) (hv4 : bearer.s1uSgw.ipv4 = true) (hv6 : bearer.s1uSgw.ipv6 = false)
    (hebi : bearer.ebi.toNat ≤ 15) (hkey : (emm.emmGetKeNB P).length = 32) (hpdu : ∀ m ∈ pdu, m.length ≤ 2000) :
    ∃ req, c.ecmSendCtxtSUReq P x pdu (first :: rest) =
        .ok (c.log (.ctxtSUReq id c.sci emm.nasUlCountForSC req)) ∧
      let sent := s1apEncode (ieCodecs junk (n + 1)) (ctxtSUReqMessage e.mmeUEId e.eNBUEId req)
      s1apDecode (ieCodecs junk (n + 1)) junk sent.1 sent.2 = .ok ⟨0, 0, ⟨9, 0, 0, [
        ⟨0, 0, some (.mMEUES1APID e.mmeUEId.toNat)⟩,
        ⟨8, 0, some (.eNBUES1APID e.eNBUEId.toNat)⟩,
        ⟨66, 0, some (.uEAggregateMaximumBitrate
          { uEaggregateMaximumBitRateDL := emm.subs.ambrDl.toNat
            uEaggregateMaximumBitRateUL := emm.subs.ambrUl.toNat })⟩,
        ⟨24, 0, some (.eRABToBeSetupListCtxtSUReq [⟨52, 0, some (.eRABToBeSetupItemCtxtSUReq
          { opt := if (pdu.filter (· ≠ [])).isSome then 0x80 else 0
            eRABID := ⟨0, bearer.ebi.toNat⟩
            eRABlevelQoSParameters := some { qCI := 9, allocationRetentionPriority := some { priorityLevel := 15 } }
            transportLayerAddress := some ⟨0, 32, bearer.s1uSgw.addr⟩
            gTPTEID := bearer.s1uSgw.teid
            nASPDU := pdu.filter (· ≠ []) })⟩])⟩,
        ⟨107, 0, some (.uESecurityCapabilities
          { encryptionAlgorithms := ⟨0, (emm.ueCapabilities.getD 0 0).toUInt16 <<< 8⟩
            integrityProtectionAlgorithms := ⟨0, (emm.ueCapabilities.getD 1 0).toUInt16 <<< 8⟩ })⟩,
        ⟨73, 0, some (.securityKey (emm.emmGetKeNB P))⟩]⟩⟩ := by
  have hfits := fitsTypes_requestOf hdl hul hlen hv4 hv6 hebi hkey hpdu
  refine ⟨requestOf P emm bearer pdu, ecmSendCtxtSUReq_of_session hecm he hemm hsession hbearer, ?_⟩
  have haddr : (⟨0, 32, bearer.s1uSgw.addr⟩ : TransportLayerAddress) =
      ⟨0, 8 * bearer.s1uSgw.addr.length, bearer.s1uSgw.addr⟩ := by rw [length_addr_of_ipv4 hlen hv4 hv6]
  rw [haddr]
  exact message_round_trip _ junk _ (frames_ctxtSUReqMessage junk n e.mmeUEId henb hfits)

end Context

namespace Sample

/-- A bearer with the tunnel 3 at the gateway 10.0.0.1. -/
def bearer : BearerContext := ⟨0, 5, Fteid.zero.write [0x81, 0, 0, 0, 3, 10, 0, 0, 1], .zero, .zero⟩

def context : EMMCtx := { emmInit 2 1 ⟨0, 1, [], [], 0, 0⟩ with
  subs := ⟨50000, 100000, 9, 1, []⟩
  ueCapabilities := [0xe0, 0x60] ++ List.replicate 13 0
  esm := ⟨6, [(5, 0)], [bearer], [⟨1, 0, none, 1, List.replicate 20 0, none, 1⟩], false, 2⟩ }

def session : ECMSession := ⟨0, some 2, .connected, true, 1, 1, 7, [0x02, 0xf8, 0x39], [0, 1], false⟩

def env : Env := { (default : Env) with ecms := fun i => if i = 1 then some session else none }

def prims : Prims := ⟨fun _ block => block, fun _ _ => List.replicate 32 0xab, fun _ => 0⟩

end Sample

theorem ctxtSUReq_faithful_sample : ∃ req,
    Sample.context.ecmSendCtxtSUReq Sample.prims Sample.env (some [0x07, 0x42]) [1] =
      .ok (Sample.context.log (.ctxtSUReq 1 false 0 req)) ∧
    let codecs := ieCodecs (fun _ _ => 0) 1
    let sent := s1apEncode codecs (ctxtSUReqMessage 1 7 req)
    s1apDecode codecs (fun _ _ => 0) sent.1 sent.2 = .ok ⟨0, 0, ⟨9, 0, 0, [
      ⟨0, 0, some (.mMEUES1APID 1)⟩,
      ⟨8, 0, some (.eNBUES1APID 7)⟩,
      ⟨66, 0, some (.uEAggregateMaximumBitrate
        { uEaggregateMaximumBitRateDL := 100000, uEaggregateMaximumBitRateUL := 50000 })⟩,
      ⟨24, 0, some (.eRABToBeSetupListCtxtSUReq [⟨52, 0, some (.eRABToBeSetupItemCtxtSUReq
        { opt := 0x80
          eRABID := ⟨0, 5⟩
          eRABlevelQoSParameters := some { qCI := 9, allocationRetentionPriority := some { priorityLevel := 15 } }
          transportLayerAddress := some ⟨0, 32, [10, 0, 0, 1]⟩
          gTPTEID := [0, 0, 0, 3]
          nASPDU := some [0x07, 0x42] })⟩])⟩,
      ⟨107, 0, some (.uESecurityCapabilities
        { encryptionAlgorithms := ⟨0, 0xe000⟩, integrityProtectionAlgorithms := ⟨0, 0x6000⟩ })⟩,
      ⟨73, 0, some (.securityKey (List.replicate 32 0xab))⟩]⟩⟩ := by
  have hsession : Sample.context.session 1 = .ok ⟨1, 0, none, 1, List.replicate 20 0, none, 1⟩ := rfl
  have hbearer : Sample.context.bearer 0 = .ok Sample.bearer := rfl
  exact ctxtSUReq_faithful Sample.prims Sample.env Sample.context [] Sample.bearer (some [0x07, 0x42]) (fun _ _ => 0) 0
    rfl rfl rfl hsession hbearer (by decide) (by decide) (by decide) (by decide)
    (by decide) (by decide) (by decide) (by decide) (by decide)

end AaltoMME.S1AP
