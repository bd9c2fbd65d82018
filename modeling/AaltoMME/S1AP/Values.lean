import AaltoMME.S1AP.Numbers
import AaltoMME.S1AP.Presence

/-!
# Values of S1AP types

The types that an InitialContextSetupRequest is made of, with the encoders and decoders of their components.
A decoder assigns the components to the fields of a new structure, as the source does.  For each type, its
encoder writes a format, and its decoder reads the value back from that format.
-/

namespace AaltoMME.S1AP

open Base PER

/-! ## Encoders and their decoders -/

/-- The encoder writes a format of at most `n` bits, and the decoder reads the value back from it. -/
structure Codes {α : Type} (enc : BinaryData → BinaryData) (dec : Decoder α) (v : α) (f : BitFormat) (n : Nat) :
    Prop where
  encodes : Encodes enc f
  decodes : Decodes dec v f
  size : f.AtMost n

theorem Codes.map {α β : Type} {enc : BinaryData → BinaryData} {x : Decoder α} {v : α} {f : BitFormat} {n : Nat}
    (h : Codes enc x v f n) (g : α → β) : Codes enc (x >>= fun v => pure (g v)) (g v) f n :=
  ⟨h.encodes, h.decodes.map g, h.size⟩

theorem atMost_natBits (w n : Nat) : (BitFormat.raw (natBits w n)).AtMost w := by
  have hraw := BitFormat.atMost_raw (natBits w n)
  rwa [length_natBits] at hraw

theorem codes_bit {v : Nat} (h : v < 2) : Codes (setbits · 1 v) getbit v (.raw (natBits 1 v)) 1 :=
  ⟨encodes_setbits v (by omega) (by omega) (by omega), decodes_getbit h, atMost_natBits 1 v⟩

theorem codes_number {val lb ub : Nat} (hlb : lb ≤ val) (hub : val ≤ ub) (hlt : ub < 2 ^ 32)
    (hrange : ub - lb + 1 ≤ 65536 ∨ lb = 0) : Codes (encodeConstrainedNumber · val lb ub)
      (decodeConstrainedNumber lb ub) val (numberFormat val lb ub) 79 :=
  ⟨encodes_encodeConstrainedNumber val lb ub, decodes_decodeConstrainedNumber hlb hub hlt hrange,
    atMost_numberFormat val lb ub⟩

/-! ### Sequences -/

section Sequences

variable {κ σ : Type} [DecidableEq κ] {enc : κ → BinaryData → BinaryData} {dec : κ → Decoder (σ → σ)}

/-- A component with what its decoder assigns, its format and the size of it. -/
structure Piece (enc : κ → BinaryData → BinaryData) (dec : κ → Decoder (σ → σ)) where
  name : κ
  {set : σ → σ}
  {format : BitFormat}
  {bits : Nat}
  codes : Codes (enc name) (dec name) set format bits

/-- A decoder that assigns the value of a component to a field. -/
def Piece.of {α : Type} (name : κ) {x : Decoder α} {v : α} {f : BitFormat} {n : Nat} (h : Codes (enc name) x v f n)
    (g : α → σ → σ) (hdec : dec name = x >>= fun v => pure (g v)) : Piece enc dec := ⟨name, hdec ▸ h.map g⟩

/-- The component with the given name. -/
def Piece.get (ps : List (Piece enc dec)) (k : κ) : Option (Piece enc dec) := ps.find? fun p => p.name = k

/-- What is assigned for a name, and what is written for it. -/
def Piece.sets (ps : List (Piece enc dec)) (k : κ) : σ → σ := (get ps k).elim id Piece.set

def Piece.formats (ps : List (Piece enc dec)) (k : κ) : BitFormat := (get ps k).elim .nil Piece.format

def Piece.sizes (ps : List (Piece enc dec)) (k : κ) : Nat := (get ps k).elim 0 Piece.bits

theorem Piece.codes_get {ps : List (Piece enc dec)} {k : κ} (h : (get ps k).isSome = true) :
    Codes (enc k) (dec k) (sets ps k) (formats ps k) (sizes ps k) := by
  obtain ⟨p, hp⟩ := Option.isSome_iff_exists.mp h
  have hname : p.name = k := by simpa using List.find?_some hp
  subst hname
  rw [sets, formats, sizes, hp]
  exact p.codes

theorem Piece.atMost_chosenFormat {ps : List (Piece enc dec)} {l : List (κ × Bool)}
    (h : ∀ c ∈ l, (get ps c.1).isSome = true) :
    (chosenFormat (formats ps) l).AtMost (l.map fun c => sizes ps c.1).sum := by
  induction l with
  | nil => exact BitFormat.atMost_nil
  | cons c l ih =>
    have hl := ih fun c' hc' => h c' (List.mem_cons_of_mem c hc')
    have hc := (codes_get (h c List.mem_cons_self)).size
    obtain ⟨k, w⟩ := c
    cases w with
    | false => exact hl.mono (by simp)
    | true => exact (hc.seq hl).mono (by simp)

/-- A sequence of components that come back. -/
theorem codes_build (s : SeqEncoder κ) (r : SeqDecoder κ) (enc : κ → BinaryData → BinaryData)
    (dec : κ → Decoder (σ → σ)) (ext : Nat) (opt : UInt8) (new : Nat → UInt8 → σ) {w : σ} {n : Nat}
    (ps : List (Piece enc dec))
    (hw : assign (new ext opt) (s.written (Piece.sets ps) opt) = w) (hext : ext < 2)
    (hwidth : (0 < s.width ∧ s.width < 8) ∧ s.width = r.read.width)
    (hchosen : DecField.chosen opt r.fields =
      (EncField.chosen opt s.fields).map fun c => (c.1, DecAct.ofWrites c.2))
    (hps : (EncField.chosen opt s.fields).all (fun c => (Piece.get ps c.1).isSome) = true)
    (hexact : r.read.Exact opt s.shift (chosenFormat (Piece.formats ps) (EncField.chosen opt s.fields)))
    (sizes : List Nat) (hsizes : (EncField.chosen opt s.fields).map (fun c => Piece.sizes ps c.1) = sizes)
    (hn : 1 + (s.width + sizes.sum) ≤ n) :
    Codes (s.run enc ext opt) (r.build dec new) w (s.format (Piece.formats ps) ext opt) n where
  encodes := SeqEncoder.encodes_run hwidth.1.1 hwidth.1.2.le ext fun c hc _ =>
    (Piece.codes_get (List.all_eq_true.mp hps c hc)).encodes
  decodes := SeqDecoder.decodes_build s r ext opt new hw hext hwidth.1.1 hwidth.1.2 hwidth.2 hchosen hexact
    fun c hc _ => (Piece.codes_get (List.all_eq_true.mp hps c hc)).decodes
  size := ((atMost_natBits 1 ext).seq ((atMost_natBits s.width _).seq
    (Piece.atMost_chosenFormat (List.all_eq_true.mp hps)))).mono (hsizes ▸ hn)

end Sequences

/-! ## Bit rates -/

def bitRateMax : Nat := 10000000000

/-- A bit rate of 32 bits is read back, although the range of bit rates is larger than that. -/
theorem codes_bitRate {rate : Nat} (h : rate < 2 ^ 32) : Codes (encodeConstrainedNumber · rate 0 bitRateMax)
    (decodeConstrainedNumber 0 bitRateMax) rate (numberFormat rate 0 bitRateMax) 79 := by
  have hread := decodes_number (Nat.zero_le rate) (show rate ≤ bitRateMax by rw [bitRateMax]; omega) h (by decide)
  rw [Nat.add_zero, Nat.mod_eq_of_lt h] at hread
  exact ⟨encodes_encodeConstrainedNumber rate 0 bitRateMax, hread, atMost_numberFormat rate 0 bitRateMax⟩

/-! ## E-RAB identities -/

/-- `E_RAB_ID_t`. -/
structure ERABID where
  ext : Nat
  id : Nat
  deriving DecidableEq, Repr

/-- `enc_E_RAB_ID`; `encode_semi_constrained_number` writes nothing. -/
def encERABID (bytes : BinaryData) (v : ERABID) : BinaryData :=
  let bytes := setbits bytes 1 v.ext
  if v.ext = 0 then encodeConstrainedNumber bytes v.id 0 15 else bytes

/-- `dec_E_RAB_ID`; `decode_semi_constrained_number` stores through a pointer that it does not set. -/
def decERABID : Decoder ERABID := do
  let ext ← getbit
  if ext = 0 then do
    let id ← decodeConstrainedNumber 0 15
    return ⟨ext, id⟩
  else throw .uninitialised

theorem codes_eRABID {id : Nat} (h : id ≤ 15) :
    ∃ f, Codes (encERABID · ⟨0, id⟩) decERABID ⟨0, id⟩ f 80 := by
  have hbit := codes_bit Nat.zero_lt_two
  have hid := codes_number (Nat.zero_le id) h (by omega) (by omega)
  have hencodes := hbit.encodes.seq hid.encodes
  refine ⟨_, ?_, hbit.decodes.bind (hid.decodes.map (ERABID.mk 0)), hbit.size.seq hid.size⟩
  simp only [encERABID, if_true]
  exact hencodes

/-! ## Transport layer addresses -/

/-- `TransportLayerAddress_t`: the length in bits and the octets. -/
structure TransportLayerAddress where
  ext : Nat
  len : Nat
  addr : List UInt8
  deriving DecidableEq, Repr

/-- `enc_TransportLayerAddress`.  The octet after the last one is skipped where the length is not a number of
octets. -/
def encTransportLayerAddress (bytes : BinaryData) (v : TransportLayerAddress) : BinaryData :=
  let bytes := setbits bytes 1 v.ext
  let bytes := encodeConstrainedNumber bytes v.len 1 160
  let bytes := alignEnc bytes
  let bytes := (List.range (v.len / 8)).foldl (fun bytes i => setbits bytes 8 (v.addr.getD i 0).toNat) bytes
  if v.len % 8 ≠ 0 then setbits bytes (v.len % 8) (v.addr.getD (v.len / 8 + 1) 0).toNat else bytes

/-- `dec_TransportLayerAddress`. -/
def decTransportLayerAddress : Decoder TransportLayerAddress := do
  let ext ← getbit
  let len ← decodeConstrainedNumber 1 160
  alignDec
  let addr ← getbits len
  return ⟨ext, len, addr⟩

/-- An address of whole octets. -/
structure TransportLayerAddress.Whole (v : TransportLayerAddress) : Prop where
  ext : v.ext < 2
  nonempty : v.addr ≠ []
  size : v.addr.length ≤ 20
  len : v.len = 8 * v.addr.length

theorem map_getD_range (l : List UInt8) : (List.range l.length).map (l.getD · 0) = l := by
  refine List.ext_getElem? fun i => ?_
  by_cases hi : i < l.length
  · simp [hi]
  · simp [hi]

theorem codes_transportLayerAddress {v : TransportLayerAddress} (h : v.Whole) :
    ∃ f, Codes (encTransportLayerAddress · v) decTransportLayerAddress v f 247 := by
  obtain ⟨ext, len, addr⟩ := v
  obtain ⟨hext, hne, hsize : addr.length ≤ 20, rfl : len = 8 * addr.length⟩ := h
  have hpos : 0 < addr.length := List.length_pos_iff.mpr hne
  have hbit := codes_bit hext
  have hlen := @codes_number (8 * addr.length) 1 160 (by omega) (by omega) (by omega) (by omega)
  have hencodes := hbit.encodes.seq (hlen.encodes.seq (encodes_setoctets addr))
  have hsize := (hbit.size.seq (hlen.size.seq (atMost_octetsFormat addr))).mono (show _ ≤ 247 by omega)
  refine ⟨_, ?_, hbit.decodes.bind (hlen.decodes.bind (decodes_alignDec.bind
    ((decodes_getbits_octets hne).map (TransportLayerAddress.mk ext (8 * addr.length))))), hsize⟩
  have hfold : ∀ b, (List.range addr.length).foldl (fun bytes i => setbits bytes 8 (addr.getD i 0).toNat) b =
      addr.foldl (fun bytes x => setbits bytes 8 x.toNat) b := fun b => by
    conv_rhs => rw [← map_getD_range addr, List.foldl_map]
  have hdiv : 8 * addr.length / 8 = addr.length := by omega
  have hmod : ¬ 8 * addr.length % 8 ≠ 0 := by omega
  simp only [encTransportLayerAddress, if_neg hmod, hdiv, hfold]
  exact hencodes

/-! ## Octet strings of any length -/

/-- `enc_Unconstrained_Octed_String`. -/
def encUnconstrainedOctedString (bytes : BinaryData) (str : List UInt8) : BinaryData :=
  encodeOctetString (encodeUnconstrainedNumber bytes str.length) str

/-- `dec_Unconstrained_Octed_String`. -/
def decUnconstrainedOctedString : Decoder (List UInt8) := do
  let len ← decodeLengthUndef
  takeOctets len

/-- After the octets of the length a short string is aligned as well. -/
theorem octetsFormat_seq_octetStringFormat (l l' : List UInt8) :
    (octetsFormat l).seq (octetStringFormat l') = (octetsFormat l).seq (octetsFormat l') := by
  funext p
  have hmod : (octetsFormat l).stop p % 8 = 0 := by
    have halign := BitFormat.stop_align_mod p
    rw [octetsFormat, BitFormat.stop_seq, BitFormat.stop_raw, length_bitsOfOctets]
    omega
  rw [octetStringFormat]
  split
  · show octetsFormat l p ++ bitsOfOctets l' = octetsFormat l p ++ octetsFormat l' ((octetsFormat l).stop p)
    have hpad : BitFormat.align ((octetsFormat l).stop p) = [] := by rw [BitFormat.align, hmod]; rfl
    rw [octetsFormat.eq_1 l', BitFormat.seq, hpad]
    rfl
  · rfl

theorem codes_unconstrainedOctedString {str : List UInt8} (h : str.length ≤ 2000) :
    ∃ f, Codes (encUnconstrainedOctedString · str) decUnconstrainedOctedString str f 16030 := by
  refine ⟨openTypeFormat str, ?_, (decodes_decodeLengthUndef (by omega)).bind (decodes_takeOctets str), ?_⟩
  · rw [openTypeFormat, ← octetsFormat_seq_octetStringFormat]
    exact (encodes_encodeUnconstrainedNumber (by omega)).seq (encodes_encodeOctetString (by omega))
  · have hlength := length_lengthOctets_le str.length
    exact ((atMost_octetsFormat (lengthOctets str.length)).seq (atMost_octetsFormat str)).mono (by omega)

/-! ## Algorithms -/

/-- The two bit strings of `UESecurityCapabilities_t`. -/
structure Algorithms where
  ext : Nat
  v : UInt16
  deriving DecidableEq, Repr

/-- The lines of `enc_UESecurityCapabilities` for one of them. -/
def encAlgorithms (bytes : BinaryData) (a : Algorithms) : BinaryData :=
  let bytes := setbits bytes 1 a.ext
  if a.ext = 0 then setbits bytes 16 a.v.toNat else bytes

/-- `ntohs` of two octets. -/
def ntohs (l : List UInt8) : UInt16 := UInt16.ofNat ((l.getD 0 0).toNat * 256 + (l.getD 1 0).toNat)

/-- The lines of `dec_UESecurityCapabilities` for one of them. -/
def decAlgorithms : Decoder Algorithms := do
  let ext ← getbit
  if ext = 0 then do
    let bits ← getbits 16
    return ⟨ext, ntohs bits⟩
  else return ⟨ext, 0⟩

theorem natBits_sixteen (n : Nat) :
    natBits 16 n = bitsOfOctets [UInt8.ofNat (n / 256), UInt8.ofNat n] := by
  rw [natBits_add 8 8, bitsOfOctets_cons, bitsOfOctets_cons, octetBits, octetBits, UInt8.toNat_ofNat',
    UInt8.toNat_ofNat', natBits_mod, natBits_mod]
  rfl

theorem codes_algorithms (v : UInt16) : ∃ f, Codes (encAlgorithms · ⟨0, v⟩) decAlgorithms ⟨0, v⟩ f 17 := by
  have hlt := v.toNat_lt
  have hv : ntohs [UInt8.ofNat (v.toNat / 256), UInt8.ofNat v.toNat] = v := by
    refine UInt16.toNat_inj.mp ?_
    simp only [ntohs, List.getD_cons_zero, List.getD_cons_succ, UInt16.toNat_ofNat', UInt8.toNat_ofNat']
    omega
  have hbits := (decodes_getbits_octets (l := [UInt8.ofNat (v.toNat / 256), UInt8.ofNat v.toNat]) nofun).map
    fun bits => (⟨0, ntohs bits⟩ : Algorithms)
  rw [← natBits_sixteen, hv] at hbits
  have hbit := codes_bit Nat.zero_lt_two
  have hencodes := hbit.encodes.seq (encodes_setbits (n := 16) v.toNat (by omega) (by omega) (by omega))
  exact ⟨_, hencodes, hbit.decodes.bind hbits, hbit.size.seq (atMost_natBits 16 _)⟩

/-! ## Allocation and retention priority -/

/-- `AllocationAndRetentionPriority_t`. -/
structure AllocationAndRetentionPriority where
  ext : Nat := 0
  opt : UInt8 := 0
  priorityLevel : Nat := 0
  preEmptionCapability : Nat := 0
  preEmptionVulnerability : Nat := 0
  deriving DecidableEq, Repr

namespace AllocationAndRetentionPriority

/-- The encoders of the components. -/
def components (v : AllocationAndRetentionPriority) : S1APComponent → BinaryData → BinaryData
  | .priorityLevel, bytes => encodeConstrainedNumber bytes v.priorityLevel 0 15
  | .preEmptionCapability, bytes => encodeConstrainedNumber bytes v.preEmptionCapability 0 1
  | .preEmptionVulnerability, bytes => encodeConstrainedNumber bytes v.preEmptionVulnerability 0 1
  | _, bytes => bytes

/-- `enc_AllocationAndRetentionPriority` with the encoders of its components. -/
def encode (bytes : BinaryData) (v : AllocationAndRetentionPriority) : BinaryData :=
  encAllocationAndRetentionPriority.run v.components v.ext v.opt bytes

/-- The decoders of the components, which assign them. -/
def assigns : S1APComponent → Decoder (AllocationAndRetentionPriority → AllocationAndRetentionPriority)
  | .priorityLevel => do
    let n ← decodeConstrainedNumber 0 15
    return fun v => { v with priorityLevel := n }
  | .preEmptionCapability => do
    let n ← decodeEnumerated 0 1
    return fun v => { v with preEmptionCapability := n }
  | .preEmptionVulnerability => do
    let n ← decodeEnumerated 0 1
    return fun v => { v with preEmptionVulnerability := n }
  | _ => return id

/-- `dec_AllocationAndRetentionPriority` with the decoders of its components. -/
def decode : Decoder AllocationAndRetentionPriority :=
  decAllocationAndRetentionPriority.build assigns fun ext opt => { ext, opt }

/-- A value within the bounds of its components. -/
structure Bounded (v : AllocationAndRetentionPriority) : Prop where
  ext : v.ext < 2
  opt : v.opt = 0
  priorityLevel : v.priorityLevel ≤ 15
  preEmptionCapability : v.preEmptionCapability ≤ 1
  preEmptionVulnerability : v.preEmptionVulnerability ≤ 1

theorem codes {v : AllocationAndRetentionPriority} (h : v.Bounded) : ∃ f, Codes (encode · v) decode v f 239 := by
  obtain ⟨ext, opt, p, c, u⟩ := v
  obtain rfl : opt = 0 := h.opt
  have hp := codes_number (Nat.zero_le p) h.priorityLevel (by omega) (by omega)
  have hc := codes_number (Nat.zero_le c) h.preEmptionCapability (by omega) (by omega)
  have hu := codes_number (Nat.zero_le u) h.preEmptionVulnerability (by omega) (by omega)
  exact ⟨_, codes_build encAllocationAndRetentionPriority decAllocationAndRetentionPriority
    (components ⟨ext, 0, p, c, u⟩) assigns ext 0 (fun ext opt => { ext, opt }) [
      .of .priorityLevel hp (fun n v => { v with priorityLevel := n }) rfl,
      .of .preEmptionCapability hc (fun n v => { v with preEmptionCapability := n }) rfl,
      .of .preEmptionVulnerability hu (fun n v => { v with preEmptionVulnerability := n }) rfl]
    rfl h.ext (by decide) (by decide) rfl (OptRead.exact_bit (by decide) _)
    [79, 79, 79] rfl (by decide)⟩

end AllocationAndRetentionPriority

/-! ## Quality of service -/

/-- `GBR_QosInformation_t`. -/
structure GBRQosInformation where
  ext : Nat := 0
  opt : UInt8 := 0
  eRABMaximumBitrateDL : Nat := 0
  eRABMaximumBitrateUL : Nat := 0
  eRABGuaranteedBitrateDL : Nat := 0
  eRABGuaranteedBitrateUL : Nat := 0
  deriving DecidableEq, Repr

namespace GBRQosInformation

/-- The encoders of the components. -/
def components (v : GBRQosInformation) : S1APComponent → BinaryData → BinaryData
  | .eRABMaximumBitrateDL, bytes => encodeConstrainedNumber bytes v.eRABMaximumBitrateDL 0 bitRateMax
  | .eRABMaximumBitrateUL, bytes => encodeConstrainedNumber bytes v.eRABMaximumBitrateUL 0 bitRateMax
  | .eRABGuaranteedBitrateDL, bytes => encodeConstrainedNumber bytes v.eRABGuaranteedBitrateDL 0 bitRateMax
  | .eRABGuaranteedBitrateUL, bytes => encodeConstrainedNumber bytes v.eRABGuaranteedBitrateUL 0 bitRateMax
  | _, bytes => bytes

/-- `enc_GBR_QosInformation` with the encoders of its components. -/
def encode (bytes : BinaryData) (v : GBRQosInformation) : BinaryData :=
  encGBRQosInformation.run v.components v.ext v.opt bytes

/-- The decoders of the components, which assign them. -/
def assigns : S1APComponent → Decoder (GBRQosInformation → GBRQosInformation)
  | .eRABMaximumBitrateDL => do
    let n ← decodeConstrainedNumber 0 bitRateMax
    return fun v => { v with eRABMaximumBitrateDL := n }
  | .eRABMaximumBitrateUL => do
    let n ← decodeConstrainedNumber 0 bitRateMax
    return fun v => { v with eRABMaximumBitrateUL := n }
  | .eRABGuaranteedBitrateDL => do
    let n ← decodeConstrainedNumber 0 bitRateMax
    return fun v => { v with eRABGuaranteedBitrateDL := n }
  | .eRABGuaranteedBitrateUL => do
    let n ← decodeConstrainedNumber 0 bitRateMax
    return fun v => { v with eRABGuaranteedBitrateUL := n }
  | _ => return id

/-- `dec_GBR_QosInformation` with the decoders of its components. -/
def decode : Decoder GBRQosInformation := decGBRQosInformation.build assigns fun ext opt => { ext, opt }

end GBRQosInformation

/-- `E_RABLevelQoSParameters_t`, with `none` for NULL. -/
structure ERABLevelQoSParameters where
  ext : Nat := 0
  opt : UInt8 := 0
  qCI : Nat := 0
  allocationRetentionPriority : Option AllocationAndRetentionPriority := none
  gbrQosInformation : Option GBRQosInformation := none
  deriving DecidableEq, Repr

namespace ERABLevelQoSParameters

/-- The encoders of the components. -/
def components (v : ERABLevelQoSParameters) : S1APComponent → BinaryData → BinaryData
  | .qCI, bytes => encodeConstrainedNumber bytes v.qCI 0 255
  | .allocationRetentionPriority, bytes =>
    v.allocationRetentionPriority.elim bytes (AllocationAndRetentionPriority.encode bytes)
  | .gbrQosInformation, bytes => v.gbrQosInformation.elim bytes (GBRQosInformation.encode bytes)
  | _, bytes => bytes

/-- `enc_E_RABLevelQoSParameters` with the encoders of its components. -/
def encode (bytes : BinaryData) (v : ERABLevelQoSParameters) : BinaryData :=
  encERABLevelQoSParameters.run v.components v.ext v.opt bytes

/-- The decoders of the components, which assign them. -/
def assigns : S1APComponent → Decoder (ERABLevelQoSParameters → ERABLevelQoSParameters)
  | .qCI => do
    let n ← decodeConstrainedNumber 0 255
    return fun v => { v with qCI := n }
  | .allocationRetentionPriority => do
    let w ← AllocationAndRetentionPriority.decode
    return fun v => { v with allocationRetentionPriority := some w }
  | .gbrQosInformation => do
    let w ← GBRQosInformation.decode
    return fun v => { v with gbrQosInformation := some w }
  | _ => return id

/-- `dec_E_RABLevelQoSParameters` with the decoders of its components. -/
def decode : Decoder ERABLevelQoSParameters := decERABLevelQoSParameters.build assigns fun ext opt => { ext, opt }

/-- A value without guaranteed bit rates, as every bearer of the MME has. -/
def ofQCI (qCI : Nat) (arp : AllocationAndRetentionPriority) : ERABLevelQoSParameters :=
  { qCI, allocationRetentionPriority := some arp }

/-- The class identifier is aligned, so that zeros follow the presence bits. -/
theorem codes {qCI : Nat} {arp : AllocationAndRetentionPriority} (hqCI : qCI ≤ 255) (harp : arp.Bounded) :
    ∃ f, Codes (encode · (ofQCI qCI arp)) decode (ofQCI qCI arp) f 324 := by
  obtain ⟨f, harp⟩ := AllocationAndRetentionPriority.codes harp
  have hqCI := codes_number (Nat.zero_le qCI) hqCI (by omega) (by omega)
  refine ⟨_, codes_build encERABLevelQoSParameters decERABLevelQoSParameters (components (ofQCI qCI arp)) assigns 0 0
    (fun ext opt => { ext, opt }) [
    .of .qCI hqCI (fun n v => { v with qCI := n }) rfl,
    .of .allocationRetentionPriority harp (fun w v => { v with allocationRetentionPriority := some w }) rfl]
    rfl (by decide) (by decide) (by decide) rfl ?_ [79, 239] rfl (by decide)⟩
  have hexact := @OptRead.exact_aligned 5 0 (by decide) (by decide) (by decide)
    ((BitFormat.raw (bitsOfOctets [UInt8.ofNat (val2 qCI 0)])).seq (f.seq .nil))
  rw [← BitFormat.seq_assoc] at hexact
  exact hexact

end ERABLevelQoSParameters

/-! ## E-RABs to be set up -/

/-- `E_RABToBeSetupItemCtxtSUReq_t`, with `none` for NULL. -/
structure ERABToBeSetupItemCtxtSUReq where
  ext : Nat := 0
  opt : UInt8 := 0
  eRABID : ERABID := ⟨0, 0⟩
  eRABlevelQoSParameters : Option ERABLevelQoSParameters := none
  transportLayerAddress : Option TransportLayerAddress := none
  gTPTEID : List UInt8 := [0, 0, 0, 0]
  nASPDU : Option (List UInt8) := none
  deriving DecidableEq, Repr

namespace ERABToBeSetupItemCtxtSUReq

/-- The encoders of the components; nothing sets `iEext`. -/
def components (v : ERABToBeSetupItemCtxtSUReq) : S1APComponent → BinaryData → BinaryData
  | .eRABID, bytes => encERABID bytes v.eRABID
  | .eRABLevelQoSParameters, bytes => v.eRABlevelQoSParameters.elim bytes (ERABLevelQoSParameters.encode bytes)
  | .transportLayerAddress, bytes => v.transportLayerAddress.elim bytes (encTransportLayerAddress bytes)
  | .gTPTEID, bytes => encodeOctetString bytes v.gTPTEID
  | .nASPDU, bytes => v.nASPDU.elim bytes (encUnconstrainedOctedString bytes)
  | _, bytes => bytes

/-- `enc_E_RABToBeSetupItemCtxtSUReq` with the encoders of its components. -/
def encode (bytes : BinaryData) (v : ERABToBeSetupItemCtxtSUReq) : BinaryData :=
  encERABToBeSetupItemCtxtSUReq.run v.components v.ext v.opt bytes

/-- The decoders of the components, which assign them. -/
def assigns : S1APComponent → Decoder (ERABToBeSetupItemCtxtSUReq → ERABToBeSetupItemCtxtSUReq)
  | .eRABID => do
    let w ← decERABID
    return fun v => { v with eRABID := w }
  | .eRABLevelQoSParameters => do
    let w ← ERABLevelQoSParameters.decode
    return fun v => { v with eRABlevelQoSParameters := some w }
  | .transportLayerAddress => do
    let w ← decTransportLayerAddress
    return fun v => { v with transportLayerAddress := some w }
  | .gTPTEID => do
    let w ← decodeOctetString 4
    return fun v => { v with gTPTEID := w }
  | .nASPDU => do
    let w ← decUnconstrainedOctedString
    return fun v => { v with nASPDU := some w }
  | _ => return id

/-- `dec_E_RABToBeSetupItemCtxtSUReq` with the decoders of its components. -/
def decode : Decoder ERABToBeSetupItemCtxtSUReq :=
  decERABToBeSetupItemCtxtSUReq.build assigns fun ext opt => { ext, opt }

/-- An item as the MME makes it: the presence bit is set with the NAS PDU. -/
def ofBearer (id : Nat) (qos : Nat × AllocationAndRetentionPriority) (address : TransportLayerAddress)
    (teid : List UInt8) (pdu : Option (List UInt8)) : ERABToBeSetupItemCtxtSUReq where
  opt := if pdu.isSome then 0x80 else 0
  eRABID := ⟨0, id⟩
  eRABlevelQoSParameters := some (.ofQCI qos.1 qos.2)
  transportLayerAddress := some address
  gTPTEID := teid
  nASPDU := pdu

variable {id : Nat} {qos : Nat × AllocationAndRetentionPriority} {address : TransportLayerAddress}
  {teid : List UInt8} {pdu : Option (List UInt8)}

/-- The values of the components of such an item that are read back. -/
structure Bounded (id : Nat) (qos : Nat × AllocationAndRetentionPriority) (address : TransportLayerAddress)
    (teid : List UInt8) (pdu : Option (List UInt8)) : Prop where
  id : id ≤ 15
  qCI : qos.1 ≤ 255
  arp : qos.2.Bounded
  address : address.Whole
  teid : teid.length = 4
  pdu : ∀ str ∈ pdu, str.length ≤ 2000

theorem codes (h : Bounded id qos address teid pdu) :
    ∃ f, Codes (encode · (ofBearer id qos address teid pdu)) decode (ofBearer id qos address teid pdu) f 17000 := by
  obtain ⟨f₁, hid⟩ := codes_eRABID h.id
  obtain ⟨f₂, hqos⟩ := ERABLevelQoSParameters.codes h.qCI h.arp
  obtain ⟨f₃, haddress⟩ := codes_transportLayerAddress h.address
  have hteid : Codes (encodeOctetString · teid) (decodeOctetString 4) teid (octetsFormat teid) 39 := by
    have hformat : octetStringFormat teid = octetsFormat teid := if_neg (by rw [h.teid]; decide)
    have hencodes := encodes_encodeOctetString (l := teid) (by rw [h.teid]; omega)
    have hdecodes := decodes_decodeOctetString (l := teid) (by rw [h.teid]; omega)
    have hsize := atMost_octetsFormat teid
    rw [hformat] at hencodes hdecodes
    rw [h.teid] at hdecodes hsize
    exact ⟨hencodes, hdecodes, hsize⟩
  cases pdu with
  | none => exact ⟨_, codes_build encERABToBeSetupItemCtxtSUReq decERABToBeSetupItemCtxtSUReq 
      (components (ofBearer id qos address teid none)) assigns 0 0 (fun ext opt => { ext, opt }) [
      .of .eRABID hid (fun w v => { v with eRABID := w }) rfl,
      .of .eRABLevelQoSParameters hqos (fun w v => { v with eRABlevelQoSParameters := some w }) rfl,
      .of .transportLayerAddress haddress (fun w v => { v with transportLayerAddress := some w }) rfl,
      .of .gTPTEID hteid (fun w v => { v with gTPTEID := w }) rfl]
      rfl (by decide) (by decide) (by decide) rfl (OptRead.exact_masked (by decide) (by decide) _)
      [80, 324, 247, 39] rfl (by decide)⟩
  | some str =>
    obtain ⟨f₅, hpdu⟩ := codes_unconstrainedOctedString (h.pdu str rfl)
    exact ⟨_, codes_build encERABToBeSetupItemCtxtSUReq decERABToBeSetupItemCtxtSUReq 
      (components (ofBearer id qos address teid (some str))) assigns 0 0x80 (fun ext opt => { ext, opt }) [
      .of .eRABID hid (fun w v => { v with eRABID := w }) rfl,
      .of .eRABLevelQoSParameters hqos (fun w v => { v with eRABlevelQoSParameters := some w }) rfl,
      .of .transportLayerAddress haddress (fun w v => { v with transportLayerAddress := some w }) rfl,
      .of .gTPTEID hteid (fun w v => { v with gTPTEID := w }) rfl,
      .of .nASPDU hpdu (fun w v => { v with nASPDU := some w }) rfl]
      rfl (by decide) (by decide) (by decide) rfl (OptRead.exact_masked (by decide) (by decide) _)
      [80, 324, 247, 39, 16030] rfl (by decide)⟩

end ERABToBeSetupItemCtxtSUReq

/-! ## Aggregate bit rate and security capabilities -/

/-- `UEAggregateMaximumBitrate_t`. -/
structure UEAggregateMaximumBitrate where
  ext : Nat := 0
  opt : UInt8 := 0
  uEaggregateMaximumBitRateDL : Nat := 0
  uEaggregateMaximumBitRateUL : Nat := 0
  deriving DecidableEq, Repr

namespace UEAggregateMaximumBitrate

/-- The encoders of the components. -/
def components (v : UEAggregateMaximumBitrate) : S1APComponent → BinaryData → BinaryData
  | .uEaggregateMaximumBitRateDL, bytes => encodeConstrainedNumber bytes v.uEaggregateMaximumBitRateDL 0 bitRateMax
  | .uEaggregateMaximumBitRateUL, bytes => encodeConstrainedNumber bytes v.uEaggregateMaximumBitRateUL 0 bitRateMax
  | _, bytes => bytes

/-- `enc_UEAggregateMaximumBitrate` with the encoders of its components. -/
def encode (bytes : BinaryData) (v : UEAggregateMaximumBitrate) : BinaryData :=
  encUEAggregateMaximumBitrate.run v.components v.ext v.opt bytes

/-- The decoders of the components, which assign them. -/
def assigns : S1APComponent → Decoder (UEAggregateMaximumBitrate → UEAggregateMaximumBitrate)
  | .uEaggregateMaximumBitRateDL => do
    let n ← decodeConstrainedNumber 0 bitRateMax
    return fun v => { v with uEaggregateMaximumBitRateDL := n }
  | .uEaggregateMaximumBitRateUL => do
    let n ← decodeConstrainedNumber 0 bitRateMax
    return fun v => { v with uEaggregateMaximumBitRateUL := n }
  | _ => return id

/-- `dec_UEAggregateMaximumBitrate` with the decoders of its components. -/
def decode : Decoder UEAggregateMaximumBitrate :=
  decUEAggregateMaximumBitrate.build assigns fun ext opt => { ext, opt }

variable {dl ul : Nat}

def ofRates (dl ul : Nat) : UEAggregateMaximumBitrate :=
  { uEaggregateMaximumBitRateDL := dl, uEaggregateMaximumBitRateUL := ul }

theorem codes (hdl : dl < 2 ^ 32) (hul : ul < 2 ^ 32) : ∃ f, Codes (encode · (ofRates dl ul)) decode (ofRates dl ul) f 160 :=
  ⟨_, codes_build encUEAggregateMaximumBitrate decUEAggregateMaximumBitrate (components (ofRates dl ul)) assigns 0 0
    (fun ext opt => { ext, opt }) [
    .of .uEaggregateMaximumBitRateDL (codes_bitRate hdl) (fun n v => { v with uEaggregateMaximumBitRateDL := n }) rfl,
    .of .uEaggregateMaximumBitRateUL (codes_bitRate hul) (fun n v => { v with uEaggregateMaximumBitRateUL := n }) rfl]
    rfl (by decide) (by decide) (by decide) rfl (OptRead.exact_bit (by decide) _)
    [79, 79] rfl (by decide)⟩

end UEAggregateMaximumBitrate

/-- `UESecurityCapabilities_t`. -/
structure UESecurityCapabilities where
  ext : Nat := 0
  opt : UInt8 := 0
  encryptionAlgorithms : Algorithms := ⟨0, 0⟩
  integrityProtectionAlgorithms : Algorithms := ⟨0, 0⟩
  deriving DecidableEq, Repr

namespace UESecurityCapabilities

/-- The encoders of the components; nothing sets `iEext`. -/
def components (v : UESecurityCapabilities) : S1APComponent → BinaryData → BinaryData
  | .encryptionAlgorithms, bytes => encAlgorithms bytes v.encryptionAlgorithms
  | .integrityProtectionAlgorithms, bytes => encAlgorithms bytes v.integrityProtectionAlgorithms
  | _, bytes => bytes

/-- `enc_UESecurityCapabilities` with the encoders of its components. -/
def encode (bytes : BinaryData) (v : UESecurityCapabilities) : BinaryData :=
  encUESecurityCapabilities.run v.components v.ext v.opt bytes

/-- The decoders of the components, which assign them. -/
def assigns : S1APComponent → Decoder (UESecurityCapabilities → UESecurityCapabilities)
  | .encryptionAlgorithms => do
    let w ← decAlgorithms
    return fun v => { v with encryptionAlgorithms := w }
  | .integrityProtectionAlgorithms => do
    let w ← decAlgorithms
    return fun v => { v with integrityProtectionAlgorithms := w }
  | _ => return id

/-- `dec_UESecurityCapabilities` with the decoders of its components. -/
def decode : Decoder UESecurityCapabilities := decUESecurityCapabilities.build assigns fun ext opt => { ext, opt }

variable (eea eia : UInt16)

def ofAlgorithms : UESecurityCapabilities :=
  { encryptionAlgorithms := ⟨0, eea⟩, integrityProtectionAlgorithms := ⟨0, eia⟩ }

theorem codes : ∃ f, Codes (encode · (ofAlgorithms eea eia)) decode (ofAlgorithms eea eia) f 36 := by
  obtain ⟨f₁, heea⟩ := codes_algorithms eea
  obtain ⟨f₂, heia⟩ := codes_algorithms eia
  exact ⟨_, codes_build encUESecurityCapabilities decUESecurityCapabilities (components (ofAlgorithms eea eia)) assigns 0 0
    (fun ext opt => { ext, opt }) [
    .of .encryptionAlgorithms heea (fun w v => { v with encryptionAlgorithms := w }) rfl,
    .of .integrityProtectionAlgorithms heia (fun w v => { v with integrityProtectionAlgorithms := w }) rfl]
    rfl (by decide) (by decide) (by decide) rfl (OptRead.exact_bit (by decide) _)
    [17, 17] rfl (by decide)⟩

end UESecurityCapabilities

end AaltoMME.S1AP
