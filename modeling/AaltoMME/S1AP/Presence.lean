import AaltoMME.S1AP.Sequence
import Mathlib.Data.List.Sublists

/-!
# The presence bits of the S1AP types

The SEQUENCE types with OPTIONAL components of `S1AP_IEenc.c` and `S1AP_IEdec.c` that have an encoder and a
decoder.  The extension bit and the presence bits come first.  How many presence bits there are, and which
bit stands for which component, is chosen in each function on its own, and the two sides do not always
agree.

The codecs of the components are parameters.  All that is asked of them is that each decoder reads what
its encoder wrote, so that whatever goes wrong in a type goes wrong in its presence bits.
-/

namespace AaltoMME.S1AP

open Base PER

/-! ## Encoders and decoders -/

/-- The components of the types, under the names of the fields that hold them. -/
inductive S1APComponent
  | tAC | broadcastPLMNs | cSGid | servedPLMNs | servedGroupIDs | servedMMECs
  | iECriticality | iEID | typeOfError
  | priorityLevel | preEmptionCapability | preEmptionVulnerability
  | eRABMaximumBitrateDL | eRABMaximumBitrateUL | eRABGuaranteedBitrateDL | eRABGuaranteedBitrateUL
  | qCI | allocationRetentionPriority | gbrQosInformation
  | mMEUES1APID | eNBUES1APID
  | pDCPSN | hFN | globalENBID | selectedTAI
  | lAI | rAC | rNCID | extendedRNCID
  | pLMNidentity | lAC | cI | eNBid
  | procedureCode | triggeringMessage | procedureCriticality | iEsCriticalityDiagnostics
  | cellID | uEaggregateMaximumBitRateDL | uEaggregateMaximumBitRateUL
  | eRABID | eRABLevelQoSParameters | transportLayerAddress | gTPTEID | nASPDU
  | encryptionAlgorithms | integrityProtectionAlgorithms
  | bearersSubjectToStatusTransferList | uLCOUNTvalue | dLCOUNTvalue | receiveStatusOfULPDCPSDUs
  | cause | mMEC | mTMSI | tAI | nextHopChainingCount | nextHopParameter
  | dLTransportLayerAddress | dLGTPTEID | uLTransportLayerAddress | uLGTPTEID
  | iEext
  deriving DecidableEq, Repr

open S1APComponent

/-- Mandatory components of an encoder. -/
def mandatoryEnc (l : List S1APComponent) : List (EncField S1APComponent) := l.map (⟨·, .always, true⟩)

/-- Mandatory components of a decoder. -/
def mandatoryDec (l : List S1APComponent) : List (DecField S1APComponent) := l.map (⟨·, .always, .reads⟩)

/-- An encoder with one presence bit, which reports that `iE-Extensions` is not implemented. -/
def loggingEnc (test : OptTest) (l : List S1APComponent) : SeqEncoder S1APComponent :=
  ⟨1, 0, mandatoryEnc l ++ [⟨iEext, test, false⟩]⟩

def loggingDec (read : OptRead) (test : OptTest) (l : List S1APComponent) : SeqDecoder S1APComponent :=
  ⟨read, mandatoryDec l ++ [⟨iEext, test, .logs⟩]⟩

/-- An encoder with one presence bit, which hands `iEext` to `enc_protocolIEs`. -/
def extendingEnc (test : OptTest) (l : List S1APComponent) : SeqEncoder S1APComponent :=
  ⟨1, 0, mandatoryEnc l ++ [⟨iEext, test, true⟩]⟩

def extendingDec (test : OptTest) (l : List S1APComponent) : SeqDecoder S1APComponent :=
  ⟨.bit, mandatoryDec l ++ [⟨iEext, test, .adds⟩]⟩

/-- `enc_SupportedTAs_Item`. -/
def encSupportedTAsItem : SeqEncoder S1APComponent := loggingEnc .nonzero [tAC, broadcastPLMNs]

/-- `dec_SupportedTAs_Item`. -/
def decSupportedTAsItem : SeqDecoder S1APComponent := loggingDec .bit .nonzero [tAC, broadcastPLMNs]

/-- `enc_CSGidList_Item`. -/
def encCSGidListItem : SeqEncoder S1APComponent := loggingEnc .nonzero [cSGid]

/-- `dec_CSG_IdList_Item`. -/
def decCSGIdListItem : SeqDecoder S1APComponent := loggingDec (.bits 1 0xFF) .nonzero [cSGid]

/-- `enc_ServedGUMMEIsItem`. -/
def encServedGUMMEIsItem : SeqEncoder S1APComponent :=
  loggingEnc .nonzero [servedPLMNs, servedGroupIDs, servedMMECs]

/-- `dec_ServedGUMMEIsItem`. -/
def decServedGUMMEIsItem : SeqDecoder S1APComponent :=
  loggingDec (.bits 1 0xFF) .nonzero [servedPLMNs, servedGroupIDs, servedMMECs]

/-- `enc_CriticalityDiagnostics_IE_Item`. -/
def encCriticalityDiagnosticsIEItem : SeqEncoder S1APComponent :=
  ⟨4, 8 - 4, [⟨iECriticality, .mask 0x8, true⟩, ⟨iEID, .mask 0x4, true⟩, ⟨typeOfError, .mask 0x2, true⟩,
    ⟨iEext, .mask 0x1, false⟩]⟩

/-- `dec_CriticalityDiagnostics_IE_Item`. -/
def decCriticalityDiagnosticsIEItem : SeqDecoder S1APComponent :=
  ⟨.bits 5 0xFF, [⟨iECriticality, .mask 0x8, .reads⟩, ⟨iEID, .mask 0x4, .reads⟩,
    ⟨typeOfError, .mask 0x2, .reads⟩, ⟨iEext, .mask 0x1, .logs⟩]⟩

/-- `enc_AllocationAndRetentionPriority`. -/
def encAllocationAndRetentionPriority : SeqEncoder S1APComponent :=
  loggingEnc .one [priorityLevel, preEmptionCapability, preEmptionVulnerability]

/-- `dec_AllocationAndRetentionPriority`. -/
def decAllocationAndRetentionPriority : SeqDecoder S1APComponent :=
  loggingDec .bit .one [priorityLevel, preEmptionCapability, preEmptionVulnerability]

/-- `enc_GBR_QosInformation`. -/
def encGBRQosInformation : SeqEncoder S1APComponent :=
  loggingEnc .one [eRABMaximumBitrateDL, eRABMaximumBitrateUL, eRABGuaranteedBitrateDL, eRABGuaranteedBitrateUL]

/-- `dec_GBR_QosInformation`. -/
def decGBRQosInformation : SeqDecoder S1APComponent :=
  loggingDec .bit .one
    [eRABMaximumBitrateDL, eRABMaximumBitrateUL, eRABGuaranteedBitrateDL, eRABGuaranteedBitrateUL]

/-- `enc_E_RABLevelQoSParameters`. -/
def encERABLevelQoSParameters : SeqEncoder S1APComponent :=
  ⟨5, 8 - 5, mandatoryEnc [qCI, allocationRetentionPriority] ++
    [⟨gbrQosInformation, .mask 0x80, true⟩, ⟨iEext, .mask 0x40, false⟩]⟩

/-- `dec_E_RABLevelQoSParameters`. -/
def decERABLevelQoSParameters : SeqDecoder S1APComponent :=
  ⟨.bits 5 0xFF, mandatoryDec [qCI, allocationRetentionPriority] ++
    [⟨gbrQosInformation, .mask 0x80, .reads⟩, ⟨iEext, .mask 0x40, .logs⟩]⟩

/-- `enc_UE_S1AP_ID_pair`. -/
def encUES1APIDPair : SeqEncoder S1APComponent := extendingEnc .one [mMEUES1APID, eNBUES1APID]

/-- `dec_UE_S1AP_ID_pair`. -/
def decUES1APIDPair : SeqDecoder S1APComponent := extendingDec .one [mMEUES1APID, eNBUES1APID]

/-- `enc_COUNTvalue`. -/
def encCOUNTvalue : SeqEncoder S1APComponent := extendingEnc .one [pDCPSN, hFN]

/-- `dec_COUNTvalue`. -/
def decCOUNTvalue : SeqDecoder S1APComponent := extendingDec (.mask 0x40) [pDCPSN, hFN]

/-- `enc_TargeteNB_ID`. -/
def encTargeteNBID : SeqEncoder S1APComponent := extendingEnc .one [globalENBID, selectedTAI]

/-- `dec_TargeteNB_ID`. -/
def decTargeteNBID : SeqDecoder S1APComponent := extendingDec (.mask 0x40) [globalENBID, selectedTAI]

/-- `enc_TargetRNC_ID`. -/
def encTargetRNCID : SeqEncoder S1APComponent :=
  ⟨3, 8 - 3, [⟨lAI, .always, true⟩, ⟨rAC, .mask 0x80, false⟩, ⟨rNCID, .always, true⟩,
    ⟨extendedRNCID, .mask 0x40, false⟩, ⟨iEext, .mask 0x20, true⟩]⟩

/-- `dec_TargetRNC_ID`. -/
def decTargetRNCID : SeqDecoder S1APComponent :=
  ⟨.bits 5 0xFF, [⟨lAI, .always, .reads⟩, ⟨rAC, .mask 0x80, .logs⟩, ⟨rNCID, .always, .reads⟩,
    ⟨extendedRNCID, .mask 0x40, .logs⟩, ⟨iEext, .mask 0x20, .logs⟩]⟩

/-- `enc_CGI`. -/
def encCGI : SeqEncoder S1APComponent :=
  ⟨2, 8 - 2, mandatoryEnc [pLMNidentity, lAC, cI] ++ [⟨rAC, .mask 0x80, false⟩, ⟨iEext, .mask 0x40, true⟩]⟩

/-- `dec_CGI`. -/
def decCGI : SeqDecoder S1APComponent :=
  ⟨.bits 5 0xFF, mandatoryDec [pLMNidentity, lAC, cI] ++ [⟨rAC, .mask 0x80, .logs⟩, ⟨iEext, .mask 0x40, .logs⟩]⟩

/-- `enc_UE_associatedLogicalS1_ConnectionItem`. -/
def encUEassociatedLogicalS1ConnectionItem : SeqEncoder S1APComponent :=
  ⟨3, 8 - 3, [⟨mMEUES1APID, .mask 0x80, true⟩, ⟨eNBUES1APID, .mask 0x40, true⟩, ⟨iEext, .mask 0x20, true⟩]⟩

/-- `dec_UE_associatedLogicalS1_ConnectionItem`. -/
def decUEassociatedLogicalS1ConnectionItem : SeqDecoder S1APComponent :=
  ⟨.bits 3 0xFF, [⟨mMEUES1APID, .mask 0x80, .reads⟩, ⟨eNBUES1APID, .mask 0x40, .reads⟩,
    ⟨iEext, .mask 0x20, .adds⟩]⟩

/-- `enc_Global_ENB_ID`. -/
def encGlobalENBID : SeqEncoder S1APComponent := loggingEnc .nonzero [pLMNidentity, eNBid]

/-- `dec_Global_ENB_ID`. -/
def decGlobalENBID : SeqDecoder S1APComponent := loggingDec (.bits 1 0xFF) .nonzero [pLMNidentity, eNBid]

/-- `enc_CriticalityDiagnostics`, which does not shift `opt`. -/
def encCriticalityDiagnostics : SeqEncoder S1APComponent :=
  ⟨5, 0, [⟨procedureCode, .mask 0x10, true⟩, ⟨triggeringMessage, .mask 0x8, true⟩,
    ⟨procedureCriticality, .mask 0x4, true⟩, ⟨iEsCriticalityDiagnostics, .mask 0x2, true⟩,
    ⟨iEext, .mask 0x1, false⟩]⟩

/-- `dec_CriticalityDiagnostics`. -/
def decCriticalityDiagnostics : SeqDecoder S1APComponent :=
  ⟨.bits 5 0xFF, [⟨procedureCode, .mask 0x10, .reads⟩, ⟨triggeringMessage, .mask 0x8, .reads⟩,
    ⟨procedureCriticality, .mask 0x4, .reads⟩, ⟨iEsCriticalityDiagnostics, .mask 0x2, .reads⟩,
    ⟨iEext, .mask 0x1, .logs⟩]⟩

/-- `enc_TAI`. -/
def encTAI : SeqEncoder S1APComponent := loggingEnc .nonzero [pLMNidentity, tAC]

/-- `dec_TAI`. -/
def decTAI : SeqDecoder S1APComponent := loggingDec .bit .nonzero [pLMNidentity, tAC]

/-- `enc_EUTRAN_CGI`. -/
def encEUTRANCGI : SeqEncoder S1APComponent := loggingEnc .nonzero [pLMNidentity, cellID]

/-- `dec_EUTRAN_CGI`. -/
def decEUTRANCGI : SeqDecoder S1APComponent := loggingDec (.bits 1 0xFF) .nonzero [pLMNidentity, cellID]

/-- `enc_UEAggregateMaximumBitrate`. -/
def encUEAggregateMaximumBitrate : SeqEncoder S1APComponent :=
  loggingEnc .nonzero [uEaggregateMaximumBitRateDL, uEaggregateMaximumBitRateUL]

/-- `dec_UEAggregateMaximumBitrate`. -/
def decUEAggregateMaximumBitrate : SeqDecoder S1APComponent :=
  loggingDec .bit .nonzero [uEaggregateMaximumBitRateDL, uEaggregateMaximumBitRateUL]

/-- `enc_E_RABToBeSetupItemCtxtSUReq`. -/
def encERABToBeSetupItemCtxtSUReq : SeqEncoder S1APComponent :=
  ⟨2, 8 - 2, mandatoryEnc [eRABID, eRABLevelQoSParameters, transportLayerAddress, gTPTEID] ++
    [⟨nASPDU, .mask 0x80, true⟩, ⟨iEext, .mask 0x40, true⟩]⟩

/-- `dec_E_RABToBeSetupItemCtxtSUReq`. -/
def decERABToBeSetupItemCtxtSUReq : SeqDecoder S1APComponent :=
  ⟨.bits 2 0xC0, mandatoryDec [eRABID, eRABLevelQoSParameters, transportLayerAddress, gTPTEID] ++
    [⟨nASPDU, .mask 0x80, .reads⟩, ⟨iEext, .mask 0x40, .adds⟩]⟩

/-- `enc_UESecurityCapabilities`. -/
def encUESecurityCapabilities : SeqEncoder S1APComponent :=
  extendingEnc .one [encryptionAlgorithms, integrityProtectionAlgorithms]

/-- `dec_UESecurityCapabilities`. -/
def decUESecurityCapabilities : SeqDecoder S1APComponent :=
  extendingDec .one [encryptionAlgorithms, integrityProtectionAlgorithms]

/-- `enc_ENB_StatusTransfer_TransparentContainer`. -/
def encENBStatusTransferTransparentContainer : SeqEncoder S1APComponent :=
  extendingEnc .one [bearersSubjectToStatusTransferList]

/-- `dec_ENB_StatusTransfer_TransparentContainer`. -/
def decENBStatusTransferTransparentContainer : SeqDecoder S1APComponent :=
  extendingDec .one [bearersSubjectToStatusTransferList]

/-- `enc_Bearers_SubjectToStatusTransfer_Item`. -/
def encBearersSubjectToStatusTransferItem : SeqEncoder S1APComponent :=
  ⟨2, 8 - 2, mandatoryEnc [eRABID, uLCOUNTvalue, dLCOUNTvalue] ++
    [⟨receiveStatusOfULPDCPSDUs, .mask 0x80, false⟩, ⟨iEext, .mask 0x40, true⟩]⟩

/-- `dec_Bearers_SubjectToStatusTransfer_Item`. -/
def decBearersSubjectToStatusTransferItem : SeqDecoder S1APComponent :=
  ⟨.bits 2 0xC0, mandatoryDec [eRABID, uLCOUNTvalue, dLCOUNTvalue] ++
    [⟨receiveStatusOfULPDCPSDUs, .mask 0x80, .logs⟩, ⟨iEext, .mask 0x40, .adds⟩]⟩

/-- `enc_E_RABItem`. -/
def encERABItem : SeqEncoder S1APComponent := extendingEnc .one [eRABID, cause]

/-- `dec_E_RABItem`. -/
def decERABItem : SeqDecoder S1APComponent := extendingDec .one [eRABID, cause]

/-- `enc_E_RABToBeModifiedItemBearerModReq`. -/
def encERABToBeModifiedItemBearerModReq : SeqEncoder S1APComponent :=
  extendingEnc .one [eRABID, eRABLevelQoSParameters, nASPDU]

/-- `dec_E_RABToBeModifiedItemBearerModReq`. -/
def decERABToBeModifiedItemBearerModReq : SeqDecoder S1APComponent :=
  extendingDec .one [eRABID, eRABLevelQoSParameters, nASPDU]

/-- `enc_E_RABToBeSetupItemBearerSUReq`. -/
def encERABToBeSetupItemBearerSUReq : SeqEncoder S1APComponent :=
  extendingEnc .one [eRABID, eRABLevelQoSParameters, transportLayerAddress, gTPTEID, nASPDU]

/-- `dec_E_RABToBeSetupItemBearerSUReq`. -/
def decERABToBeSetupItemBearerSUReq : SeqDecoder S1APComponent :=
  extendingDec .one [eRABID, eRABLevelQoSParameters, transportLayerAddress, gTPTEID, nASPDU]

/-- `enc_E_RABSetupItemBearerSURes`. -/
def encERABSetupItemBearerSURes : SeqEncoder S1APComponent :=
  extendingEnc .one [eRABID, transportLayerAddress, gTPTEID]

/-- `dec_E_RABSetupItemBearerSURes`. -/
def decERABSetupItemBearerSURes : SeqDecoder S1APComponent :=
  extendingDec .one [eRABID, transportLayerAddress, gTPTEID]

/-- `enc_LAI`. -/
def encLAI : SeqEncoder S1APComponent := extendingEnc .one [pLMNidentity, lAC]

/-- `dec_LAI`. -/
def decLAI : SeqDecoder S1APComponent := extendingDec .one [pLMNidentity, lAC]

/-- `enc_E_RABToBeSetupItemHOReq`. -/
def encERABToBeSetupItemHOReq : SeqEncoder S1APComponent :=
  extendingEnc .one [eRABID, transportLayerAddress, gTPTEID, eRABLevelQoSParameters]

/-- `dec_E_RABToBeSetupItemHOReq`. -/
def decERABToBeSetupItemHOReq : SeqDecoder S1APComponent :=
  extendingDec .one [eRABID, transportLayerAddress, gTPTEID, eRABLevelQoSParameters]

/-- `enc_SecurityContext`, which tests another bit than the one that it writes. -/
def encSecurityContext : SeqEncoder S1APComponent :=
  extendingEnc (.mask 0x40) [nextHopChainingCount, nextHopParameter]

/-- `dec_SecurityContext`. -/
def decSecurityContext : SeqDecoder S1APComponent := extendingDec .one [nextHopChainingCount, nextHopParameter]

/-- `enc_E_RABAdmittedItem`. -/
def encERABAdmittedItem : SeqEncoder S1APComponent :=
  ⟨5, 8 - 5, mandatoryEnc [eRABID, transportLayerAddress, gTPTEID] ++
    [⟨dLTransportLayerAddress, .mask 0x80, true⟩, ⟨dLGTPTEID, .mask 0x40, true⟩,
      ⟨uLTransportLayerAddress, .mask 0x20, true⟩, ⟨uLGTPTEID, .mask 0x10, true⟩, ⟨iEext, .mask 0x08, true⟩]⟩

/-- `dec_E_RABAdmittedItem`. -/
def decERABAdmittedItem : SeqDecoder S1APComponent :=
  ⟨.bits 5 0xFF, mandatoryDec [eRABID, transportLayerAddress, gTPTEID] ++
    [⟨dLTransportLayerAddress, .mask 0x80, .reads⟩, ⟨dLGTPTEID, .mask 0x40, .reads⟩,
      ⟨uLTransportLayerAddress, .mask 0x20, .reads⟩, ⟨uLGTPTEID, .mask 0x10, .reads⟩, ⟨iEext, .mask 0x08, .adds⟩]⟩

/-- `enc_E_RABDataForwardingItem`. -/
def encERABDataForwardingItem : SeqEncoder S1APComponent :=
  ⟨5, 8 - 5, mandatoryEnc [eRABID] ++
    [⟨dLTransportLayerAddress, .mask 0x80, true⟩, ⟨dLGTPTEID, .mask 0x40, true⟩,
      ⟨uLTransportLayerAddress, .mask 0x20, true⟩, ⟨uLGTPTEID, .mask 0x10, true⟩, ⟨iEext, .mask 0x08, true⟩]⟩

/-- `dec_E_RABDataForwardingItem`, which tests the bit of the uplink address for the downlink address. -/
def decERABDataForwardingItem : SeqDecoder S1APComponent :=
  ⟨.bits 5 0xFF, mandatoryDec [eRABID] ++
    [⟨dLTransportLayerAddress, .mask 0x20, .reads⟩, ⟨dLGTPTEID, .mask 0x40, .reads⟩,
      ⟨uLTransportLayerAddress, .mask 0x20, .reads⟩, ⟨uLGTPTEID, .mask 0x10, .reads⟩, ⟨iEext, .mask 0x08, .adds⟩]⟩

/-- `enc_S_TMSI`. -/
def encSTMSI : SeqEncoder S1APComponent := extendingEnc .one [mMEC, mTMSI]

/-- `dec_S_TMSI`. -/
def decSTMSI : SeqDecoder S1APComponent := extendingDec .one [mMEC, mTMSI]

/-- `enc_TAIItem`. -/
def encTAIItem : SeqEncoder S1APComponent := extendingEnc .one [S1APComponent.tAI]

/-- `dec_TAIItem`. -/
def decTAIItem : SeqDecoder S1APComponent := extendingDec .one [S1APComponent.tAI]

/-- The SEQUENCE types that have OPTIONAL components, an encoder and a decoder. -/
inductive S1APSequence
  | supportedTAsItem | cSGIdListItem | servedGUMMEIsItem | criticalityDiagnosticsIEItem
  | allocationAndRetentionPriority | gBRQosInformation | eRABLevelQoSParameters
  | uES1APIDPair | cOUNTvalue | targeteNBID | targetRNCID | cGI
  | uEassociatedLogicalS1ConnectionItem | globalENBID | criticalityDiagnostics | tAI | eUTRANCGI
  | uEAggregateMaximumBitrate | eRABToBeSetupItemCtxtSUReq | uESecurityCapabilities
  | eNBStatusTransferTransparentContainer | bearersSubjectToStatusTransferItem | eRABItem
  | eRABToBeModifiedItemBearerModReq | eRABToBeSetupItemBearerSUReq | eRABSetupItemBearerSURes
  | lAI | eRABToBeSetupItemHOReq | securityContext | eRABAdmittedItem | eRABDataForwardingItem
  | sTMSI | tAIItem
  deriving DecidableEq, Repr

namespace S1APSequence

def encoder : S1APSequence → SeqEncoder S1APComponent
  | supportedTAsItem => encSupportedTAsItem
  | cSGIdListItem => encCSGidListItem
  | servedGUMMEIsItem => encServedGUMMEIsItem
  | criticalityDiagnosticsIEItem => encCriticalityDiagnosticsIEItem
  | allocationAndRetentionPriority => encAllocationAndRetentionPriority
  | gBRQosInformation => encGBRQosInformation
  | eRABLevelQoSParameters => encERABLevelQoSParameters
  | uES1APIDPair => encUES1APIDPair
  | cOUNTvalue => encCOUNTvalue
  | targeteNBID => encTargeteNBID
  | targetRNCID => encTargetRNCID
  | cGI => encCGI
  | uEassociatedLogicalS1ConnectionItem => encUEassociatedLogicalS1ConnectionItem
  | globalENBID => encGlobalENBID
  | criticalityDiagnostics => encCriticalityDiagnostics
  | tAI => encTAI
  | eUTRANCGI => encEUTRANCGI
  | uEAggregateMaximumBitrate => encUEAggregateMaximumBitrate
  | eRABToBeSetupItemCtxtSUReq => encERABToBeSetupItemCtxtSUReq
  | uESecurityCapabilities => encUESecurityCapabilities
  | eNBStatusTransferTransparentContainer => encENBStatusTransferTransparentContainer
  | bearersSubjectToStatusTransferItem => encBearersSubjectToStatusTransferItem
  | eRABItem => encERABItem
  | eRABToBeModifiedItemBearerModReq => encERABToBeModifiedItemBearerModReq
  | eRABToBeSetupItemBearerSUReq => encERABToBeSetupItemBearerSUReq
  | eRABSetupItemBearerSURes => encERABSetupItemBearerSURes
  | lAI => encLAI
  | eRABToBeSetupItemHOReq => encERABToBeSetupItemHOReq
  | securityContext => encSecurityContext
  | eRABAdmittedItem => encERABAdmittedItem
  | eRABDataForwardingItem => encERABDataForwardingItem
  | sTMSI => encSTMSI
  | tAIItem => encTAIItem

def decoder : S1APSequence → SeqDecoder S1APComponent
  | supportedTAsItem => decSupportedTAsItem
  | cSGIdListItem => decCSGIdListItem
  | servedGUMMEIsItem => decServedGUMMEIsItem
  | criticalityDiagnosticsIEItem => decCriticalityDiagnosticsIEItem
  | allocationAndRetentionPriority => decAllocationAndRetentionPriority
  | gBRQosInformation => decGBRQosInformation
  | eRABLevelQoSParameters => decERABLevelQoSParameters
  | uES1APIDPair => decUES1APIDPair
  | cOUNTvalue => decCOUNTvalue
  | targeteNBID => decTargeteNBID
  | targetRNCID => decTargetRNCID
  | cGI => decCGI
  | uEassociatedLogicalS1ConnectionItem => decUEassociatedLogicalS1ConnectionItem
  | globalENBID => decGlobalENBID
  | criticalityDiagnostics => decCriticalityDiagnostics
  | tAI => decTAI
  | eUTRANCGI => decEUTRANCGI
  | uEAggregateMaximumBitrate => decUEAggregateMaximumBitrate
  | eRABToBeSetupItemCtxtSUReq => decERABToBeSetupItemCtxtSUReq
  | uESecurityCapabilities => decUESecurityCapabilities
  | eNBStatusTransferTransparentContainer => decENBStatusTransferTransparentContainer
  | bearersSubjectToStatusTransferItem => decBearersSubjectToStatusTransferItem
  | eRABItem => decERABItem
  | eRABToBeModifiedItemBearerModReq => decERABToBeModifiedItemBearerModReq
  | eRABToBeSetupItemBearerSUReq => decERABToBeSetupItemBearerSUReq
  | eRABSetupItemBearerSURes => decERABSetupItemBearerSURes
  | lAI => decLAI
  | eRABToBeSetupItemHOReq => decERABToBeSetupItemHOReq
  | securityContext => decSecurityContext
  | eRABAdmittedItem => decERABAdmittedItem
  | eRABDataForwardingItem => decERABDataForwardingItem
  | sTMSI => decSTMSI
  | tAIItem => decTAIItem

end S1APSequence

/-! ## Subsets of the components -/

/-- The value of `opt` for a subset of the optional components: the bit of each of them. -/
def optOf (S : S1APComponent → Bool) : List (EncField S1APComponent) → UInt8
  | [] => 0
  | ⟨_, .always, _⟩ :: fs => optOf S fs
  | f :: fs => (if S f.name then f.test.bit else 0) ||| optOf S fs

/-- Contents for the components: codecs with values, and the bits of each value.  A PLMN identity is an octet
string of size 3, which is aligned. -/
structure Contents (α : Type) where
  enc : S1APComponent → BinaryData → BinaryData
  dec : S1APComponent → Decoder α
  value : S1APComponent → α
  format : S1APComponent → BitFormat
  encodes : ∀ c, Encodes (enc c) (format c)
  decodes : ∀ c, Decodes (dec c) (value c) (format c)
  plmn : ∃ l, format .pLMNidentity = octetsFormat l

namespace S1APSequence

variable {α : Type} {T : S1APSequence} {S : S1APComponent → Bool}

/-- The value of `opt` for a subset of the optional components of a type. -/
def opt (T : S1APSequence) (S : S1APComponent → Bool) : UInt8 := optOf S T.encoder.fields

/-- Encode a value without extension additions that has a subset of the optional components. -/
def encode (T : S1APSequence) (C : Contents α) (S : S1APComponent → Bool) : BinaryData → BinaryData :=
  T.encoder.run C.enc 0 (T.opt S)

/-- The encoder and the decoder of a type agree on a subset of its optional components: they have the same
number of presence bits, and whatever the components hold and wherever the value starts, the decoder finds the
components that the encoder took for present, with their values, and ends where the encoder ended. -/
def PresenceAgrees (T : S1APSequence) (S : S1APComponent → Bool) : Prop :=
  T.encoder.width = T.decoder.read.width ∧
    ∀ (α : Type) (C : Contents α) (b d : BinaryData), b.Clean → d.pos < 8 → d.decPos = b.encPos →
      d.mem = (T.encode C S b).mem → d.Covers (T.encode C S b).encPos →
        ∃ opt' d', T.decoder.run C.dec d = .ok ((0, opt', T.encoder.written C.value (T.opt S)), d') ∧
          d'.decPos = (T.encode C S b).encPos

/-- The choice of the decoder for what it got for `opt` is that of the encoder. -/
def Matches (T : S1APSequence) (opt opt' : UInt8) : Prop :=
  DecField.chosen opt' T.decoder.fields =
    (EncField.chosen opt T.encoder.fields).map fun c => (c.1, DecAct.ofWrites c.2)

instance (T : S1APSequence) (opt opt' : UInt8) : Decidable (T.Matches opt opt') :=
  inferInstanceAs (Decidable (_ = _))

theorem width_bounds : ∀ T : S1APSequence, 0 < T.encoder.width ∧ T.encoder.width < 8 := by
  intro T
  cases T <;> decide

def format (T : S1APSequence) (C : Contents α) (S : S1APComponent → Bool) : BitFormat :=
  T.encoder.format C.format 0 (T.opt S)

theorem encodes_encode (T : S1APSequence) (C : Contents α) (S : S1APComponent → Bool) :
    Encodes (T.encode C S) (T.format C S) :=
  SeqEncoder.encodes_run T.width_bounds.1 T.width_bounds.2.le 0 fun c _ _ => C.encodes c.1

section Written

variable {C : Contents α} {b : BinaryData} (hb : b.Clean)
include hb

theorem at_format : (T.format C S).At (T.encode C S b).mem b.encPos :=
  (T.encodes_encode C S b hb).bits

theorem at_presence : (BitFormat.raw (natBits T.encoder.width ((T.opt S).toNat >>> T.encoder.shift))).At
    (T.encode C S b).mem (b.encPos + 1) :=
  (BitFormat.at_seq.mp (BitFormat.at_seq.mp (at_format hb)).2).1

theorem at_components : (chosenFormat C.format (EncField.chosen (T.opt S) T.encoder.fields)).At
    (T.encode C S b).mem (b.encPos + 1 + T.encoder.width) := by
  have hrest := (BitFormat.at_seq.mp (BitFormat.at_seq.mp (at_format (T := T) (S := S) (C := C) hb)).2).2
  simpa only [BitFormat.stop_raw, length_natBits] using hrest

end Written

/-- It is enough that the choice is right for whatever the decoder can get for `opt`. -/
theorem presenceAgrees_of_reads (hwidth : T.encoder.width = T.decoder.read.width)
    (h : ∀ (α : Type) (C : Contents α) (b : BinaryData), b.Clean → ∀ opt',
      T.decoder.read.Reads (T.encode C S b).mem (b.encPos + 1) opt' → T.Matches (T.opt S) opt') :
    T.PresenceAgrees S := by
  refine ⟨hwidth, fun α C b d hb hpos hdec hmem hc => ?_⟩
  have happ := T.encodes_encode C S b hb
  have hat : (T.format C S).At d.mem d.decPos := by
    rw [hmem, hdec]
    exact at_format hb
  have hstop : (T.format C S).stop d.decPos = (T.encode C S b).encPos := by
    rw [happ.encPos_eq, hdec]
    rfl
  obtain ⟨opt', d', hrun, -, hadv⟩ := SeqDecoder.run_eq (by omega) T.width_bounds.1
    T.width_bounds.2 hwidth (fun c _ _ => C.decodes c.1)
    (fun opt' hreads => h α C b hb opt' (by rwa [hmem, hdec] at hreads)) hpos hat (hstop ▸ hc)
  exact ⟨opt', d', hrun, hadv.decPos_eq.trans hstop⟩

/-- A type whose decoder gets its one presence bit with `getbit`. -/
theorem presenceAgrees_of_bit (hwidth : T.encoder.width = 1) (hread : T.decoder.read = .bit)
    (h : T.Matches (T.opt S) (UInt8.ofNat (((T.opt S).toNat >>> T.encoder.shift) % 2))) :
    T.PresenceAgrees S := by
  refine presenceAgrees_of_reads (by rw [hwidth, hread]; rfl) fun α C b hb opt' hreads => ?_
  have hat := at_presence (T := T) (S := S) (C := C) hb
  rw [hwidth] at hat
  rw [hread] at hreads
  rwa [hreads.eq_of_bit hat]

/-- A type whose decoder gets several presence bits with `getbits` and tests only these. -/
theorem presenceAgrees_of_bits {n : Nat} {mask : UInt8} (hwidth : T.encoder.width = n) (hle : n ≤ 8)
    (hshift : T.encoder.shift = 8 - n) (hread : T.decoder.read = .bits n mask)
    (hmask : mask &&& topBits n = topBits n) (hfs : ∀ f ∈ T.decoder.fields, f.test.within n = true)
    (h : T.Matches (T.opt S) (T.opt S)) : T.PresenceAgrees S := by
  refine presenceAgrees_of_reads (by rw [hwidth, hread]; rfl) fun α C b hb opt' hreads => ?_
  have hat := at_presence (T := T) (S := S) (C := C) hb
  rw [hwidth, hshift] at hat
  rw [hread] at hreads
  rw [Matches, DecField.chosen_of_reads hle hmask hfs hat hreads]
  exact h

theorem eq_zero_of_testBit {x : UInt8} (h : ∀ i < 8, x.toNat.testBit (7 - i) ≠ true) : x = 0 := by
  refine UInt8.toNat_inj.mp (Nat.eq_of_testBit_eq fun k => ?_)
  rw [UInt8.toNat_zero, Nat.zero_testBit]
  by_cases hk : k < 8
  · have hbit := h (7 - k) (by omega)
    rw [show 7 - (7 - k) = k by omega] at hbit
    exact Bool.eq_false_iff.mpr hbit
  · have hpow : 2 ^ 8 ≤ 2 ^ k := Nat.pow_le_pow_right (by omega) (by omega)
    exact Nat.testBit_lt_two_pow (lt_of_lt_of_le x.toNat_lt hpow)

/-- Before a PLMN identity the octet of the presence bit is filled with zeros. -/
theorem bit_before_plmn (hhead : (EncField.chosen (T.opt S) T.encoder.fields).head? = some (.pLMNidentity, true))
    (hwidth : T.encoder.width = 1) (C : Contents α) {b : BinaryData} (hb : b.Clean) {i : Nat} (hi : 1 ≤ i)
    (hlt : (b.encPos + 1) % 8 + i < 8) : (T.encode C S b).mem.bit (b.encPos + 1 + i) = false := by
  obtain ⟨l, hl⟩ := List.head?_eq_some_iff.mp hhead
  have hat := at_components (T := T) (S := S) (C := C) hb
  obtain ⟨octets, hplmn⟩ := C.plmn
  have hformat : chosenFormat C.format ((S1APComponent.pLMNidentity, true) :: l) =
      BitFormat.align.seq ((BitFormat.raw (bitsOfOctets octets)).seq (chosenFormat C.format l)) := by
    show (C.format .pLMNidentity).seq _ = _
    rw [hplmn, octetsFormat, BitFormat.seq_assoc]
    rfl
  rw [hl, hwidth, hformat] at hat
  have hpad := (BitFormat.at_seq.mp hat).1.bit_align (i := i - 1) (by omega)
  rwa [show b.encPos + 1 + 1 + (i - 1) = b.encPos + 1 + i by omega] at hpad

/-- A type whose decoder gets its one presence bit with `getbits` and compares the octet with zero.  Where the bit
is zero a PLMN identity has to follow. -/
theorem presenceAgrees_of_octet (hwidth : T.encoder.width = 1) (hshift : T.encoder.shift = 0)
    (hread : T.decoder.read = .bits 1 0xFF)
    (hfs : ∀ f ∈ T.decoder.fields, f.test = .always ∨ f.test = .nonzero) (hopt : (T.opt S).toNat < 2)
    (hplmn : T.opt S = 0 → (EncField.chosen (T.opt S) T.encoder.fields).head? = some (.pLMNidentity, true))
    (h : T.Matches (T.opt S) (T.opt S)) : T.PresenceAgrees S := by
  refine presenceAgrees_of_reads (by rw [hwidth, hread]; rfl) fun α C b hb opt' hreads => ?_
  have hat := at_presence (T := T) (S := S) (C := C) hb
  rw [hwidth, hshift] at hat
  rw [hread] at hreads
  obtain ⟨x, rfl, htake, hjunk⟩ := hreads
  have hfirst := shiftRight_eq_of_take hopt (htake.trans hat)
  have hiff : x = 0 ↔ T.opt S = 0 := by
    constructor
    · rintro rfl
      exact UInt8.toNat_inj.mp hfirst.symm
    · intro h₀
      refine eq_zero_of_testBit fun i hi hx => ?_
      obtain ⟨hbit, hin⟩ := hjunk i hi hx
      by_cases hpresence : i = 0
      · subst hpresence
        have hshifted : (x.toNat >>> 7).testBit 0 = true := by
          exact hx
        rw [hfirst, h₀] at hshifted
        cases hshifted
      · rw [bit_before_plmn (hplmn h₀) hwidth C hb (by omega) (hin (by omega))] at hbit
        exact Bool.false_ne_true hbit
  have hsame : ∀ f ∈ T.decoder.fields, f.test.holds (x &&& 0xFF) = f.test.holds (T.opt S) := fun f hf => by
    have hx : x &&& 0xFF = x := UInt8.and_neg_one
    rcases hfs f hf with hf | hf
    · rw [hf]
      rfl
    · rw [hf, hx, OptTest.holds, OptTest.holds, bne, bne, Bool.not_inj_iff, Bool.eq_iff_iff, beq_iff_eq, beq_iff_eq]
      exact hiff
  rw [Matches, DecField.chosen_congr hsame]
  exact h

theorem eq_zero_of_reads {n p : Nat} {mask opt' : UInt8} {m : Mem} (h : (OptRead.bits n mask).Reads m p opt')
    (hzero : ∀ i < 8, m.bit (p + i) = false) : opt' = 0 := by
  obtain ⟨x, rfl, -, hjunk⟩ := h
  have hx : x = 0 := eq_zero_of_testBit fun i hi hx => by
    have hbit := (hjunk i hi hx).1
    rw [hzero i hi] at hbit
    exact Bool.false_ne_true hbit
  rw [hx, UInt8.zero_and]

/-- A type without mandatory components, when nothing is present: all bits are zero, and nothing follows. -/
theorem presenceAgrees_of_none {n : Nat} {mask : UInt8} (hwidth : T.encoder.width = n)
    (hread : T.decoder.read = .bits n mask) (hopt : T.opt S = 0) (hnone : EncField.chosen 0 T.encoder.fields = [])
    (h : T.Matches 0 0) : T.PresenceAgrees S := by
  refine presenceAgrees_of_reads (by rw [hwidth, hread]; rfl) fun α C b hb opt' hreads => ?_
  have happ := T.encodes_encode C S b hb
  have hend : (T.encode C S b).encPos = b.encPos + 1 + n := by
    rw [happ.encPos_eq, format, SeqEncoder.format, hopt, hnone]
    simp [BitFormat.seq, BitFormat.raw, chosenFormat, BitFormat.nil]
    omega
  have hat := at_presence (T := T) (S := S) (C := C) hb
  rw [hread] at hreads
  have hzero : opt' = 0 := eq_zero_of_reads hreads fun i _ => by
    by_cases hin : i < n
    · rw [hwidth, hopt, UInt8.toNat_zero, Nat.zero_shiftRight, natBits_zero_right] at hat
      have hbits : (T.encode C S b).mem.bits (b.encPos + 1) (List.replicate n false).length =
        List.replicate n false := hat
      have hbit := Mem.getElem?_bits (T.encode C S b).mem (i := b.encPos + 1) hin
      rw [List.length_replicate] at hbits
      rw [hbits, List.getElem?_replicate, if_pos hin] at hbit
      exact (Option.some.inj hbit).symm
    · exact happ.zero _ (by omega)
  rw [hzero, hopt]
  exact h

/-! ## Where the two sides agree -/

/-- The subsets on which the encoder and the decoder of a type agree. -/
def AgreesOn (T : S1APSequence) (S : S1APComponent → Bool) : Prop :=
  match T with
  -- not the same number of bits
  | targetRNCID | cGI | criticalityDiagnosticsIEItem => False
  -- the encoder does not shift `opt`
  | criticalityDiagnostics => S .procedureCode = false ∧ S .triggeringMessage = false ∧
      S .procedureCriticality = false ∧ S .iEsCriticalityDiagnostics = false ∧ S .iEext = false
  -- the octet that is compared with zero has bits of the first component
  | cSGIdListItem | servedGUMMEIsItem => S .iEext = true
  | supportedTAsItem | allocationAndRetentionPriority | gBRQosInformation | eRABLevelQoSParameters | globalENBID
  | tAI | eUTRANCGI | uEAggregateMaximumBitrate => True
  -- the bit of the uplink address is tested for both addresses
  | eRABDataForwardingItem => S .dLTransportLayerAddress = S .uLTransportLayerAddress ∧ S .iEext = false
  -- the decoder uses a container for `iE-Extensions` that nobody made
  | _ => S .iEext = false

def oneBit (v : Nat) (hv : v < 2) : Contents Nat where
  enc c b := if c = .pLMNidentity then setoctets b [0, 0, 0] else setbits b 1 v
  dec c := if c = .pLMNidentity then takeOctets 3 >>= fun _ => pure v else getbit
  value _ := v
  format c := if c = .pLMNidentity then octetsFormat [0, 0, 0] else .raw (natBits 1 v)
  encodes c := by
    by_cases hc : c = .pLMNidentity
    · simp only [if_pos hc]
      exact encodes_setoctets [0, 0, 0]
    · simp only [if_neg hc]
      exact encodes_setbits v (by omega) (by omega) (by omega)
  decodes c := by
    by_cases hc : c = .pLMNidentity
    · simp only [if_pos hc]
      exact (decodes_takeOctets [0, 0, 0]).map fun _ => v
    · simp only [if_neg hc]
      exact decodes_getbit hv
  plmn := ⟨[0, 0, 0], if_pos rfl⟩

/-- The decoder finds what the encoder wrote at the start of a buffer, with contents of one bit each. -/
def finds (T : S1APSequence) (opt : UInt8) (v : Nat) (hv : v < 2) : Bool :=
  let bytes := T.encoder.run (oneBit v hv).enc 0 opt .empty
  match T.decoder.run (oneBit v hv).dec (.ofBuffer bytes.mem bytes.length) with
  | .ok ((_, _, found), _) => found == T.encoder.written (oneBit v hv).value opt
  | .error _ => false

theorem PresenceAgrees.finds (h : T.PresenceAgrees S) (v : Nat) (hv : v < 2)
    (hsize : (T.encode (oneBit v hv) S .empty).encPos < 2 ^ 32) : T.finds (T.opt S) v hv = true := by
  have henc := T.encodes_encode (oneBit v hv) S
  obtain ⟨opt', d', hrun, -⟩ := h.2 Nat (oneBit v hv) .empty
    (.ofBuffer (T.encode (oneBit v hv) S .empty).mem (T.encode (oneBit v hv) S .empty).length)
    BinaryData.clean_empty (Nat.zero_lt_succ _) rfl rfl (by
      rw [henc.length_empty, ← henc.encPos_empty]
      show _ ≤ 8 * 0 + (UInt32.ofNat _).toNat
      rw [UInt32.toNat_ofNat']
      omega)
  show (match T.decoder.run (oneBit v hv).dec (.ofBuffer (T.encode (oneBit v hv) S .empty).mem
    (T.encode (oneBit v hv) S .empty).length) with
    | .ok ((_, _, found), _) => found == T.encoder.written (oneBit v hv).value (T.opt S)
    | .error _ => false) = true
  rw [hrun]
  exact beq_self_eq_true _

/-- One of the two contents shows that the decoder does not find what the encoder wrote. -/
def fails (T : S1APSequence) (opt : UInt8) : Bool :=
  (T.encoder.run (oneBit 0 (by omega)).enc 0 opt .empty).encPos < 2 ^ 32 ∧ T.finds opt 0 (by omega) = false ∨
    (T.encoder.run (oneBit 1 (by omega)).enc 0 opt .empty).encPos < 2 ^ 32 ∧ T.finds opt 1 (by omega) = false

theorem not_presenceAgrees_of_fails (h : T.fails (T.opt S) = true) : ¬ T.PresenceAgrees S := by
  intro hagrees
  rcases of_decide_eq_true h with ⟨hsize, hfinds⟩ | ⟨hsize, hfinds⟩
  · rw [hagrees.finds 0 (by omega) hsize] at hfinds
    cases hfinds
  · rw [hagrees.finds 1 (by omega) hsize] at hfinds
    cases hfinds

/-! ### The subsets of a type -/

theorem optOf_congr {S S' : S1APComponent → Bool} {fs : List (EncField S1APComponent)}
    (h : ∀ f ∈ fs, f.test ≠ .always → S f.name = S' f.name) : optOf S fs = optOf S' fs := by
  induction fs with
  | nil => rfl
  | cons f fs ih =>
    have hfs := ih fun f' hf' => h f' (List.mem_cons_of_mem f hf')
    obtain ⟨name, test, writes⟩ := f
    by_cases htest : test = .always
    · subst htest
      exact hfs
    · have hname := h ⟨name, test, writes⟩ List.mem_cons_self htest
      cases test with
      | always => exact absurd rfl htest
      | nonzero => simp only [optOf, hname, hfs]
      | one => simp only [optOf, hname, hfs]
      | mask m => simp only [optOf, hname, hfs]

/-- The optional components of a type. -/
def optionals (T : S1APSequence) : List S1APComponent :=
  (T.encoder.fields.filter (·.test ≠ .always)).map EncField.name

instance (T : S1APSequence) (S : S1APComponent → Bool) : Decidable (T.AgreesOn S) := by
  cases T <;> unfold AgreesOn <;> infer_instance

/-- Only the optional components of a type matter, so there are finitely many cases. -/
theorem exists_sublist (T : S1APSequence) (S : S1APComponent → Bool) : ∃ l ∈ T.optionals.sublists,
    T.opt S = T.opt (· ∈ l) ∧ (T.AgreesOn S ↔ T.AgreesOn (· ∈ l)) := by
  have heq : ∀ c ∈ T.optionals, S c = decide (c ∈ T.optionals.filter S) := by
    intro c hc
    simp [hc]
  refine ⟨T.optionals.filter S, List.mem_sublists.mpr List.filter_sublist, ?_, ?_⟩
  · refine optOf_congr fun f hf htest => heq f.name (List.mem_map_of_mem (List.mem_filter.mpr ⟨hf, ?_⟩))
    exact decide_eq_true htest
  · cases T
    case criticalityDiagnostics =>
      simp only [AgreesOn, heq .procedureCode (by decide), heq .triggeringMessage (by decide),
        heq .procedureCriticality (by decide), heq .iEsCriticalityDiagnostics (by decide), heq .iEext (by decide)]
    case eRABDataForwardingItem =>
      simp only [AgreesOn, heq .dLTransportLayerAddress (by decide), heq .uLTransportLayerAddress (by decide),
        heq .iEext (by decide)]
    all_goals simp only [AgreesOn, heq .iEext (by decide)]

/-- One of the lemmas above applies to the type with this value of `opt`. -/
def Suits (T : S1APSequence) (opt : UInt8) : Prop :=
  (T.encoder.width = 1 ∧ T.decoder.read = .bit ∧ T.Matches opt (UInt8.ofNat ((opt.toNat >>> T.encoder.shift) % 2))) ∨
    (∃ mask ∈ [0xFF, 0xC0], T.decoder.read = .bits T.encoder.width mask ∧
      (T.encoder.shift = 8 - T.encoder.width ∧ mask &&& topBits T.encoder.width = topBits T.encoder.width ∧
          (∀ f ∈ T.decoder.fields, f.test.within T.encoder.width = true) ∧ T.Matches opt opt ∨
        opt = 0 ∧ EncField.chosen 0 T.encoder.fields = [] ∧ T.Matches 0 0)) ∨
    (T.encoder.width = 1 ∧ T.encoder.shift = 0 ∧ T.decoder.read = .bits 1 0xFF ∧
      (∀ f ∈ T.decoder.fields, f.test = .always ∨ f.test = .nonzero) ∧ opt.toNat < 2 ∧
      (opt = 0 → (EncField.chosen opt T.encoder.fields).head? = some (.pLMNidentity, true)) ∧ T.Matches opt opt)

instance (T : S1APSequence) (opt : UInt8) : Decidable (T.Suits opt) := by
  unfold Suits
  infer_instance

theorem presenceAgrees_of_suits (h : T.Suits (T.opt S)) : T.PresenceAgrees S := by
  rcases h with ⟨hwidth, hread, h⟩ | ⟨mask, -, hread, ⟨hshift, hmask, hfs, h⟩ | ⟨hopt, hnone, h⟩⟩ |
    ⟨hwidth, hshift, hread, hfs, hopt, hplmn, h⟩
  · exact presenceAgrees_of_bit hwidth hread h
  · exact presenceAgrees_of_bits rfl T.width_bounds.2.le hshift hread hmask hfs h
  · exact presenceAgrees_of_none rfl hread hopt hnone h
  · exact presenceAgrees_of_octet hwidth hshift hread hfs hopt hplmn h

theorem suits_or_fails (T : S1APSequence) : ∀ l ∈ T.optionals.sublists,
    if T.AgreesOn (· ∈ l) then T.Suits (T.opt (· ∈ l))
    else T.encoder.width ≠ T.decoder.read.width ∨ T.fails (T.opt (· ∈ l)) = true := by
  cases T <;> decide +kernel

/-- The presence bits of a type agree on a subset of its optional components exactly in the cases above. -/
theorem presenceAgrees_iff (T : S1APSequence) (S : S1APComponent → Bool) : T.PresenceAgrees S ↔ T.AgreesOn S := by
  obtain ⟨l, hl, hopt, hiff⟩ := T.exists_sublist S
  have hcase := T.suits_or_fails l hl
  rw [← hopt] at hcase
  by_cases hagrees : T.AgreesOn (· ∈ l)
  · rw [if_pos hagrees] at hcase
    exact iff_of_true (presenceAgrees_of_suits hcase) (hiff.mpr hagrees)
  · rw [if_neg hagrees] at hcase
    refine iff_of_false ?_ (mt hiff.mp hagrees)
    rcases hcase with hwidth | hfails
    · exact fun h => hwidth h.1
    · exact not_presenceAgrees_of_fails hfails

/-- An E-RAB data forwarding item with a downlink address and nothing else: the encoder writes the address, and
the decoder, which looks at the bit of the uplink address, does not find it. -/
theorem not_presenceAgrees_dataForwardingItem :
    ¬ eRABDataForwardingItem.PresenceAgrees (· == .dLTransportLayerAddress) :=
  not_presenceAgrees_of_fails (by decide +kernel)

end S1APSequence

end AaltoMME.S1AP
