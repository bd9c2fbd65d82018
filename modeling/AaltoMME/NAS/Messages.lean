import AaltoMME.NAS.Handler

/-!
# Decoding NAS messages

A decoded message is the memory image of a `GenericNASMsg_t`.  The union overlays the EMM and the
ESM message: the message type of the first is the octet at offset 2, which is the procedure
transaction identity of the second, whose own message type is at offset 3.  Decoders write fields
at the offsets of the C structures; every structure is packed or has alignment one.

The size arguments are `size_t`, so a subtraction wraps below zero; they only decide where the
optional part of a message ends.
-/

namespace AaltoMME.NAS

open Base

/-! ## Message types -/

def attachRequest : UInt8 := 0x41
def attachAccept : UInt8 := 0x42
def attachComplete : UInt8 := 0x43
def attachReject : UInt8 := 0x44
def detachRequest : UInt8 := 0x45
def detachAccept : UInt8 := 0x46
def trackingAreaUpdateRequest : UInt8 := 0x48
def trackingAreaUpdateAccept : UInt8 := 0x49
def trackingAreaUpdateComplete : UInt8 := 0x4A
def trackingAreaUpdateReject : UInt8 := 0x4B
def extendedServiceRequest : UInt8 := 0x4C
def serviceReject : UInt8 := 0x4E
def authenticationRequest : UInt8 := 0x52
def authenticationResponse : UInt8 := 0x53
def authenticationReject : UInt8 := 0x54
def identityRequest : UInt8 := 0x55
def identityResponse : UInt8 := 0x56
def authenticationFailure : UInt8 := 0x5C
def securityModeCommand : UInt8 := 0x5D
def securityModeComplete : UInt8 := 0x5E
def securityModeReject : UInt8 := 0x5F
def activateDefaultEPSBearerContextRequest : UInt8 := 0xC1
def activateDefaultEPSBearerContextAccept : UInt8 := 0xC2
def pdnConnectivityRequest : UInt8 := 0xD0
def esmInformationRequest : UInt8 := 0xD9
def esmInformationResponse : UInt8 := 0xDA

/-- `nas_isAuthRequired`: the message types that are processed without integrity protection. -/
def nasIsAuthRequired (messageType : UInt8) : Bool :=
  !(messageType = attachRequest ∨ messageType = identityResponse ∨
    messageType = authenticationResponse ∨ messageType = authenticationFailure ∨
    messageType = securityModeReject ∨ messageType = detachRequest ∨
    messageType = detachAccept ∨ messageType = trackingAreaUpdateRequest ∨
    messageType = extendedServiceRequest)

/-! ## The message image -/

/-- `GenericNASMsg_t`. -/
abbrev GenericNASMsg : Type := Mem

namespace GenericNASMsg

variable (m : GenericNASMsg)

/-- `header.protocolDiscriminator.v`. -/
def protocolDiscriminator : UInt8 := m 0 &&& 0x0F

/-- `header.securityHeaderType.v`. -/
def securityHeaderType : UInt8 := m 1 >>> 4

/-- `plain.eMM.messageType`. -/
def emmMessageType : UInt8 := m 2

/-- `plain.eSM.procedureTransactionIdentity`. -/
def esmProcedureTransactionIdentity : UInt8 := m 2

/-- `plain.eSM.messageType`. -/
def esmMessageType : UInt8 := m 3

end GenericNASMsg

/-- The size of `union nAS_ie_member`. -/
def ieMemberSize : Nat := 65538

/-! ## Optional elements -/

/-- The arguments that the optional decoders pass by reference: the message, the position in the
buffer, the octets left and the index of the next optional. -/
structure OptState where
  msg : GenericNASMsg
  pos : Nat
  size : UInt64
  optIndex : Nat

section Optionals

variable (optionals : Nat) (buf : Mem) (st : OptState) (type : UInt8)

/-- `dec_NASOpt_tlv`; `optionals` is the offset of the array in the message. -/
def decNASOptTlv : OptState :=
  if st.size = 0 then st
  else if buf st.pos = type then
    let len := (buf (st.pos + 1)).toNat + 2
    { msg := st.msg.copy (buf.shift st.pos) (optionals + st.optIndex * ieMemberSize) len
      pos := st.pos + len
      size := st.size - UInt64.ofNat len
      optIndex := st.optIndex + 1 }
  else st

/-- `dec_NASOpt_tv_t3`. -/
def decNASOptTvT3 (len : Nat) : OptState :=
  if st.size = 0 then st
  else if buf st.pos = type then
    { msg := st.msg.copy (buf.shift st.pos) (optionals + st.optIndex * ieMemberSize) len
      pos := st.pos + len
      size := st.size - UInt64.ofNat len
      optIndex := st.optIndex + 1 }
  else st

/-- `dec_NASOpt_tv_t1`. -/
def decNASOptTvT1 (valueMask : UInt8) : OptState :=
  if st.size = 0 then st
  else if buf st.pos &&& 0xF0 = type <<< (4 : UInt8) then
    { msg := st.msg.set (optionals + st.optIndex * ieMemberSize)
        (buf st.pos &&& (0xF0 ||| valueMask))
      pos := st.pos + 1
      size := st.size - 1
      optIndex := st.optIndex + 1 }
  else st

end Optionals

/-- The shape of an optional element in the list of a message. -/
inductive OptKind
  | tlv (type : UInt8)
  | tvT3 (type : UInt8) (len : Nat)
  | tvT1 (type valueMask : UInt8)

/-- Decode the optional elements of a message in the order of its list. -/
def decOptionals (optionals : Nat) (buf : Mem) (kinds : List OptKind) (st : OptState) :
    OptState :=
  kinds.foldl (fun st kind =>
    match kind with
    | .tlv type => decNASOptTlv optionals buf st type
    | .tvT3 type len => decNASOptTvT3 optionals buf st type len
    | .tvT1 type valueMask => decNASOptTvT1 optionals buf st type valueMask) st

/-- The loop of `nas_NASOpt_lookup` from the index `i` on. -/
def nasNASOptLookupFrom (msg : GenericNASMsg) (optionals : Nat) (iei : UInt8) :
    Nat → Nat → Option Nat
  | 0, _ => none
  | fuel + 1, i =>
    let p := optionals + i * ieMemberSize
    if msg p = 0 then none
    else if iei &&& 0xF8 = 0x08 then
      if msg p >>> 4 = iei then some p else nasNASOptLookupFrom msg optionals iei fuel (i + 1)
    else if msg p = iei then some p
    else nasNASOptLookupFrom msg optionals iei fuel (i + 1)

/-- `nas_NASOpt_lookup`: the offset of the first optional with the given identifier. -/
def nasNASOptLookup (msg : GenericNASMsg) (optionals maxOpts : Nat) (iei : UInt8) :
    Option Nat :=
  nasNASOptLookupFrom msg optionals iei maxOpts 0

/-! ## Decoders of single messages

The buffer `buf` starts after the message type. -/

section Decoders

variable (msg : GenericNASMsg) (buf : Mem) (size : UInt64)

/-- A length octet at `buf pos` and the value after it, stored at the offset `at`. -/
def decLv (off pos : Nat) : GenericNASMsg :=
  (msg.set off (buf pos)).copy (buf.shift (pos + 1)) (off + 1) (buf pos).toNat

/-- A 16 bit length in network order at `buf pos`, stored in host order. -/
def beLength (pos : Nat) : Nat := (buf pos).toNat * 256 + (buf (pos + 1)).toNat

/-- A two octet length at `buf pos` and the value after it, stored at the offset `at`. -/
def decLvE (off pos : Nat) : GenericNASMsg :=
  ((msg.set off (buf (pos + 1))).set (off + 1) (buf pos)).copy (buf.shift (pos + 2)) (off + 2)
    (beLength buf pos)

/-- `dec_IdentityResponse`. -/
def decIdentityResponse : GenericNASMsg := decLv msg buf 3 0

/-- `dec_AuthenticationResponse`. -/
def decAuthenticationResponse : GenericNASMsg := decLv msg buf 3 0

/-- `dec_AuthenticationFailure`. -/
def decAuthenticationFailure : GenericNASMsg :=
  let msg := msg.set 3 (buf 0)
  if size - 1 = 0 then msg
  else if buf 1 = 0x30 then msg.copy (buf.shift 1) 4 ((buf 2).toNat + 2)
  else msg

/-- `dec_AttachAccept`. -/
def decAttachAccept : GenericNASMsg :=
  let msg := (msg.setLow 3 (buf 0 &&& 0x0F)).set 4 (buf 1)
  decLvE (decLv msg buf 259 2) buf 515 (3 + (buf 2).toNat)

/-- `dec_AttachComplete`. -/
def decAttachComplete : GenericNASMsg := decLvE msg buf 3 0

/-- `dec_AttachReject`. -/
def decAttachReject : GenericNASMsg := msg.set 3 (buf 0)

/-- The offset of `optionals` in `AttachRequest_t`. -/
def attachRequestOptionals : Nat := 66054

/-- `dec_AttachRequest`. -/
def decAttachRequest : GenericNASMsg :=
  let msg := (msg.setLow 3 (buf 0 &&& 0x0F)).setHigh 4 ((buf 0 &&& 0xF0) >>> 4)
  let idLen := (buf 1).toNat
  let capPos := 2 + idLen
  let capLen := (buf capPos).toNat
  let esmPos := capPos + 1 + capLen
  let esmLen := beLength buf esmPos
  let msg := decLvE (decLv (decLv msg buf 5 1) buf 261 capPos) buf 517 esmPos
  let size := size - 1 - UInt64.ofNat (idLen + 1) - UInt64.ofNat (capLen + 1) - 2
    - UInt64.ofNat esmLen
  if size = 0 then msg
  else
    (decOptionals attachRequestOptionals buf
      [.tvT3 0x19 4, .tlv 0x50, .tvT3 0x52 6, .tvT3 0x5C 3, .tlv 0x31, .tvT3 0x13 6,
        .tvT1 0x9 0x1, .tlv 0x11, .tlv 0x20, .tlv 0x40, .tvT1 0xF 0x1, .tlv 0x5D, .tvT1 0xD 0x1,
        .tvT1 0xE 0x1, .tvT1 0xC 0x1, .tlv 0x10, .tlv 0x6A, .tlv 0x5E]
      ⟨msg, esmPos + 2 + esmLen, size, 0⟩).msg

/-- `dec_DetachRequestUEOrig`. -/
def decDetachRequestUEOrig : GenericNASMsg :=
  let msg := (msg.setLow 3 (buf 0 &&& 0x0F)).setHigh 4 ((buf 0 &&& 0xF0) >>> 4)
  decLv msg buf 5 1

/-- The offset of `optionals` in `TrackingAreaUpdateRequest_t`. -/
def trackingAreaUpdateRequestOptionals : Nat := 261

/-- `dec_TrackingAreaUpdateRequest`. -/
def decTrackingAreaUpdateRequest : GenericNASMsg :=
  let msg := (msg.setLow 3 (buf 0 &&& 0x0F)).setHigh 4 ((buf 0 &&& 0xF0) >>> 4)
  let idLen := (buf 1).toNat
  let msg := decLv msg buf 5 1
  let size := size - 1 - UInt64.ofNat (idLen + 1)
  if size = 0 then msg
  else
    (decOptionals trackingAreaUpdateRequestOptionals buf
      [.tvT1 0xB 0xF, .tvT1 0x8 0x7, .tvT3 0x19 4, .tlv 0x50, .tvT3 0x55 5, .tlv 0x58,
        .tvT3 0x52 6, .tvT3 0x5C 3, .tvT1 0xA 0x1, .tlv 0x57, .tlv 0x31, .tvT3 0x13 6,
        .tvT1 0x9 0x1, .tlv 0x11, .tlv 0x20, .tlv 0x40, .tvT1 0xF 0x1, .tlv 0x5D, .tvT1 0xE 0x1,
        .tvT1 0xD 0x1, .tvT1 0xC 0x1, .tlv 0x10, .tlv 0x6A, .tlv 0x5E]
      ⟨msg, 2 + idLen, size, 0⟩).msg

/-- The offset of `optionals` in `PDNConnectivityRequest_t`. -/
def pdnConnectivityRequestOptionals : Nat := 6

/-- `dec_PDNConnectivityRequest`. -/
def decPDNConnectivityRequest : GenericNASMsg :=
  let msg := (msg.setLow 4 (buf 0 &&& 0x0F)).setHigh 5 ((buf 0 &&& 0xF0) >>> 4)
  if size - 1 = 0 then msg
  else
    (decOptionals pdnConnectivityRequestOptionals buf
      [.tvT1 0xD 0x1, .tlv 0x28, .tlv 0x27, .tvT1 0xC 0x1] ⟨msg, 1, size - 1, 0⟩).msg

/-- `dec_EMM`: the types without a decoder only store the message type. -/
def decEMM : GenericNASMsg :=
  let messageType := buf 0
  let msg := msg.set 2 messageType
  let buf := buf.shift 1
  let size := size - 1
  if messageType = attachRequest then decAttachRequest msg buf size
  else if messageType = attachAccept then decAttachAccept msg buf
  else if messageType = attachComplete then decAttachComplete msg buf
  else if messageType = attachReject then decAttachReject msg buf
  else if messageType = detachRequest then decDetachRequestUEOrig msg buf
  else if messageType = trackingAreaUpdateRequest then decTrackingAreaUpdateRequest msg buf size
  else if messageType = authenticationResponse then decAuthenticationResponse msg buf
  else if messageType = authenticationFailure then decAuthenticationFailure msg buf size
  else if messageType = identityResponse then decIdentityResponse msg buf
  else msg

/-- `dec_ESM`: only the PDN Connectivity Request has a decoder that stores anything more. -/
def decESM : GenericNASMsg :=
  let msg := (msg.set 2 (buf 0)).set 3 (buf 1)
  if buf 1 = pdnConnectivityRequest then
    decPDNConnectivityRequest msg (buf.shift 2) (size - 2)
  else msg

end Decoders

/-! ## Decoding a whole message -/

/-- `dec_NAS`: the return value and the message.  Its test of the protocol discriminator,
`!(p != ESM || p != EMM)`, is never true, so every discriminator other than EMM is decoded as an ESM
message. -/
def decNAS (buf : Mem) (size : UInt64) : Bool × GenericNASMsg :=
  match nasGetHeader buf size.toUInt32 with
  | none => (false, Mem.zero)
  | some (s, p) =>
    let msg := (Mem.zero.set 0 p).set 1 (s.octet <<< 4)
    if s ≠ .plainNAS then (false, msg)
    else if p = epsMobilityManagementMessages then (true, decEMM msg (buf.shift 1) (size - 1))
    else (true, decESM msg (buf.shift 1) (size - 1))

/-- `dec_secNAS`.  A ciphered message is copied into a buffer of `size` octets after its header of
six octets was taken off, so a shorter one overruns it; the return value of the decoder is ignored
for a message that is only integrity protected. -/
def decSecNAS (h : NASHandler) (buf : Mem) (size : UInt64) : Outcome (Bool × GenericNASMsg) :=
  match nasGetHeader buf size.toUInt32 with
  | none => .error .uninitialised
  | some (s, _) =>
    if s = .integrityProtected then .ok (true, (decNAS (buf.shift 6) (size - 6)).2)
    else if ¬ (s.isCiphered ∨ s = .serviceRequest) then .ok (false, Mem.zero)
    else if !h.isValid then .ok (false, Mem.zero)
    else if size < 6 then .error .overflow
    else do
      let plain ← eeaCb h.e (buf.shift 6)
      .ok (decNAS plain (size - 6))

end AaltoMME.NAS
