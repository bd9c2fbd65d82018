import AaltoMME.S1AP.Decoders

/-!
# The framing of S1AP messages

A model of `S1AP.c` and of the two functions for protocol IEs.  A message is a choice, a procedure code, a
criticality and an open type; the open type holds a list of IEs, each an id, a criticality and an open
type with the value.  The encoders and decoders of the values are parameters, the tables
`getenc_S1AP_IE` and `getdec_S1AP_IE`.
-/

namespace AaltoMME.S1AP

open Base PER

variable {V : Type}

/-- `S1AP_PROTOCOL_IES_t`. -/
structure ProtocolIE (V : Type) where
  id : UInt16
  criticality : Nat
  value : V
  deriving DecidableEq

/-- `S1AP_PDU_t`, with the elements of its container. -/
structure PDU (V : Type) where
  procedureCode : UInt8
  criticality : Nat
  ext : Nat
  value : List (ProtocolIE V)
  deriving DecidableEq

/-- `S1AP_Message_t`. -/
structure Message (V : Type) where
  choice : Nat
  extension : Nat
  pdu : PDU V
  deriving DecidableEq

/-- The tables of the encoders and decoders of the values, `none` for NULL. -/
structure Codecs (V : Type) where
  enc : UInt16 → Option (BinaryData → V → BinaryData)
  dec : UInt16 → Option (BinaryData → Outcome V)

/-! ## Encoders -/

section Encoders

variable (codecs : Codecs V)

/-- `enc_protocolIEs`.  An IE without an encoder ends after its criticality. -/
def encProtocolIEs (bytes : BinaryData) (ie : ProtocolIE V) : BinaryData :=
  let bytes := encodeConstrainedNumber bytes ie.id.toNat 0 65535
  let bytes := encodeConstrainedNumber bytes ie.criticality 0 2
  match codecs.enc ie.id with
  | none => bytes
  | some ieEnc => encodeOpenType bytes (ieEnc .empty ie.value)

/-- `enc_ElementaryProcedure`. -/
def encElementaryProcedure (bytes : BinaryData) (pdu : PDU V) : BinaryData :=
  let bytes := setbits bytes 1 pdu.ext
  let bytes := encodeConstrainedNumber bytes pdu.value.length 0 65535
  pdu.value.foldl (encProtocolIEs codecs) bytes

/-- `enc_S1AP_PDU`. -/
def encS1APPDU (bytes : BinaryData) (pdu : PDU V) : BinaryData :=
  let bytes := encodeConstrainedNumber bytes pdu.procedureCode.toNat 0 255
  let bytes := encodeConstrainedNumber bytes pdu.criticality 0 2
  encodeOpenType bytes (encElementaryProcedure codecs .empty pdu)

/-- `s1ap_encode` into a buffer that its caller has cleared: the buffer and the number of octets. -/
def s1apEncode (msg : Message V) : Mem × Nat :=
  let bytes := encS1APPDU codecs (setChoiceExt .empty msg.choice 3 msg.extension) msg.pdu
  (bytes.mem, octetsFor bytes.length.toNat)

end Encoders

/-! ## Decoders -/

/-- A local buffer after `decode_open_type`: the octets, and after them what the stack held. -/
def localBuffer (junk : Mem) (octets : List UInt8) : BinaryData :=
  .ofBuffer (junk.copy (Mem.ofList octets) 0 octets.length) (UInt32.ofNat (8 * octets.length))

/-- `protocolIE_Container_addIE`. -/
def addIe (c : List (ProtocolIE (Option V))) (ie : ProtocolIE (Option V)) : List (ProtocolIE (Option V)) :=
  if c.length + 1 = 65535 then c else c ++ [ie]

section Decoders

-- what a local buffer holds before it is written can differ from call to call
variable (codecs : Codecs V) (junk : BinaryData → Mem)

/-- The end of `dec_protocolIEs`: the value of an IE from its octets.  An IE without a decoder has no
value. -/
def decValue (id criticality : Nat) (octets : List UInt8) : Decoder (ProtocolIE (Option V)) := do
  let bytes ← get
  match codecs.dec (UInt16.ofNat id) with
  | none => return ⟨UInt16.ofNat id, criticality, none⟩
  | some iedec =>
    let value ← liftM (iedec (localBuffer (junk bytes) octets))
    return ⟨UInt16.ofNat id, criticality, some value⟩

/-- `dec_protocolIEs`. -/
def decProtocolIEs : Decoder (ProtocolIE (Option V)) := do
  let id ← decodeConstrainedNumber 0 65535
  let criticality ← decodeEnumerated 0 2
  let octets ← decodeOpenType maxDataBytes
  decValue codecs junk id criticality octets

/-- The loop of `dec_ElementaryProcedure`. -/
def decIEs : Nat → List (ProtocolIE (Option V)) → Decoder (List (ProtocolIE (Option V)))
  | 0, c => return c
  | n + 1, c => do
    let ie ← decProtocolIEs codecs junk
    decIEs n (addIe c ie)

/-- `dec_ElementaryProcedure`, which adds to the empty container of a new message. -/
def decElementaryProcedure : Decoder (List (ProtocolIE (Option V))) := do
  let _ ← getbit
  let len ← decodeConstrainedNumber 0 65535
  decIEs codecs junk len []

/-- `dec_ElementaryProcedure` on the local buffer of `dec_S1AP_PDU`. -/
def decContainer (octets : List UInt8) : Decoder (List (ProtocolIE (Option V))) := do
  let bytes ← get
  let (value, _) ← liftM (decElementaryProcedure codecs junk (localBuffer (junk bytes) octets))
  return value

/-- `dec_S1AP_PDU`, which writes to the cleared structure of a new message. -/
def decS1APPDU : Decoder (PDU (Option V)) := do
  let procedureCode ← decodeConstrainedNumber 0 255
  let criticality ← decodeEnumerated 0 2
  let octets ← decodeOpenType maxDataBytes
  let value ← decContainer codecs junk octets
  return { procedureCode := UInt8.ofNat procedureCode, criticality, ext := 0, value }

/-- `s1ap_decode`. -/
def s1apDecode (data : Mem) (size : Nat) : Outcome (Message (Option V)) :=
  StateT.run' (do
    let ext ← getbit
    let choice ← getchoice 3 ext
    if choice + ext * 3 < 3 then
      let pdu ← decS1APPDU codecs junk
      return { choice, extension := ext, pdu }
    else
      return { choice, extension := ext, pdu := ⟨0, 0, 0, []⟩ })
    (.ofBuffer data (UInt32.ofNat (size * 8)))

end Decoders

/-! ## Framing -/

def ProtocolIE.decoded (ie : ProtocolIE V) : ProtocolIE (Option V) := ⟨ie.id, ie.criticality, some ie.value⟩

/-- The message that comes back; the extension bit of the procedure is not kept. -/
def Message.decoded (msg : Message V) : Message (Option V) :=
  ⟨msg.choice, msg.extension, ⟨msg.pdu.procedureCode, msg.pdu.criticality, 0, msg.pdu.value.map (·.decoded)⟩⟩

def Codecs.octets (codecs : Codecs V) (ie : ProtocolIE V) : List UInt8 :=
  match codecs.enc ie.id with
  | none => []
  | some ieEnc => (ieEnc .empty ie.value).octets

/-- An IE that the tables can encode and decode: the value fits the local buffers and its own encoder and
decoder agree on it. -/
structure Codecs.RoundTrips (codecs : Codecs V) (ie : ProtocolIE V) : Prop where
  criticality : ie.criticality ≤ 2
  enc : (codecs.enc ie.id).isSome
  size : (codecs.octets ie).length < 4096
  dec : ∃ iedec, codecs.dec ie.id = some iedec ∧
    ∀ junk, iedec (localBuffer junk (codecs.octets ie)) = .ok ie.value

def Codecs.ieFormat (codecs : Codecs V) (ie : ProtocolIE V) : BitFormat :=
  (numberFormat ie.id.toNat 0 65535).seq ((numberFormat ie.criticality 0 2).seq
    (openTypeFormat (codecs.octets ie)))

def Codecs.procedureFormat (codecs : Codecs V) (pdu : PDU V) : BitFormat :=
  (BitFormat.raw (natBits 1 pdu.ext)).seq ((numberFormat pdu.value.length 0 65535).seq
    (.concat (pdu.value.map codecs.ieFormat)))

section Framing

variable {codecs : Codecs V} {ie : ProtocolIE V} {pdu : PDU V} {msg : Message V} (junk : BinaryData → Mem)

theorem encodes_encProtocolIEs (h : codecs.RoundTrips ie) :
    Encodes (encProtocolIEs codecs · ie) (codecs.ieFormat ie) := by
  obtain ⟨ieEnc, henc⟩ := Option.isSome_iff_exists.mp h.enc
  have hoctets : codecs.octets ie = (ieEnc .empty ie.value).octets := by simp only [Codecs.octets, henc]
  have hsize := h.size
  rw [hoctets] at hsize
  have hopen := (encodes_encodeConstrainedNumber ie.criticality 0 2).seq
    (encodes_encodeOpenType (d := ieEnc .empty ie.value) (by omega))
  have hall := (encodes_encodeConstrainedNumber ie.id.toNat 0 65535).seq hopen
  simp only [encProtocolIEs, henc]
  rw [Codecs.ieFormat, hoctets]
  exact hall

theorem encodes_encElementaryProcedure (h : ∀ ie ∈ pdu.value, codecs.RoundTrips ie) :
    Encodes (encElementaryProcedure codecs · pdu) (codecs.procedureFormat pdu) := by
  have hies := Encodes.foldl
    fun ie hie => encodes_encProtocolIEs (h ie hie)
  exact (encodes_setbits pdu.ext (by omega) (by omega) (by omega)).seq
    ((encodes_encodeConstrainedNumber pdu.value.length 0 65535).seq hies)

theorem decodes_decValue (h : codecs.RoundTrips ie) :
    Decodes (decValue codecs junk ie.id.toNat ie.criticality (codecs.octets ie)) ie.decoded .nil :=
  fun d hpos _ _ => by
    obtain ⟨iedec, hdec, hvalue⟩ := h.dec
    refine ⟨d, ?_, .refl hpos⟩
    rw [decValue, UInt16.ofNat_toNat, hdec]
    show (iedec (localBuffer (junk d) (codecs.octets ie)) >>= fun v => Except.ok (v, d)) >>= _ = _
    rw [hvalue]
    rfl

theorem decodes_decProtocolIEs (h : codecs.RoundTrips ie) :
    Decodes (decProtocolIEs codecs junk) ie.decoded (codecs.ieFormat ie) := by
  have hid := decodes_decodeConstrainedNumber (Nat.zero_le _) (Nat.le_of_lt_succ ie.id.toNat_lt) (by omega) (by omega)
  have hcrit := decodes_decodeConstrainedNumber (Nat.zero_le _) h.criticality (by omega) (by omega)
  have hsize := h.size
  have hopen := decodes_decodeOpenType (by omega) (le_of_lt hsize)
  have hrest := hopen.bind (decodes_decValue junk h)
  rw [BitFormat.seq_nil] at hrest
  exact hid.bind (hcrit.bind hrest)

theorem decodes_decIEs {ies : List (ProtocolIE V)} {c : List (ProtocolIE (Option V))}
    (h : ∀ ie ∈ ies, codecs.RoundTrips ie) (hsize : c.length + ies.length < 65535) :
    Decodes (decIEs codecs junk ies.length c) (c ++ ies.map (·.decoded)) (.concat (ies.map codecs.ieFormat)) := by
  refine Decodes.iterate (s := fun c => decProtocolIEs codecs junk >>= fun ie => pure (addIe c ie)) (fun _ => rfl)
    (fun _ _ => by rw [bind_assoc]; rfl) (fun ie hie c hlt => ?_) hsize
  have hadd : addIe c ie.decoded = c ++ [ie.decoded] := if_neg (by omega)
  rw [← hadd]
  exact (decodes_decProtocolIEs junk (h ie hie)).map (addIe c)

/-- Each IE takes more than two octets, so a container that fits the local buffers has few of them. -/
theorem length_value_le (h : (codecs.procedureFormat pdu).stop 0 ≤ 8 * 4096) : pdu.value.length ≤ 2048 := by
  have hid : ∀ ie : ProtocolIE V, ∀ p, p + 16 ≤ (codecs.ieFormat ie).stop p := fun ie p => by
    have hpad := BitFormat.le_stop BitFormat.align p
    have hnum : p + 16 ≤ (numberFormat ie.id.toNat 0 65535).stop p := by
      simp [numberFormat, rangeOf, octetsFormat]
      omega
    rw [Codecs.ieFormat, BitFormat.stop_seq]
    exact hnum.trans (BitFormat.le_stop _ _)
  have hies := BitFormat.le_stop_concat (l := pdu.value.map codecs.ieFormat)
    (fun f hf => by
      obtain ⟨ie, -, rfl⟩ := List.mem_map.mp hf
      exact hid ie) ((numberFormat pdu.value.length 0 65535).stop ((BitFormat.raw (natBits 1 pdu.ext)).stop 0))
  rw [Codecs.procedureFormat, BitFormat.stop_seq, BitFormat.stop_seq] at h
  rw [List.length_map] at hies
  omega

theorem decodes_decElementaryProcedure (h : ∀ ie ∈ pdu.value, codecs.RoundTrips ie)
    (hsize : pdu.value.length < 65535) :
    Decodes (decElementaryProcedure codecs junk) (pdu.value.map (·.decoded)) (codecs.procedureFormat pdu) := by
  have hlen : Decodes (decodeConstrainedNumber 0 65535) pdu.value.length
      (numberFormat pdu.value.length 0 65535) :=
    decodes_decodeConstrainedNumber (Nat.zero_le _) (by omega) (by omega) (by omega)
  have hext : Decodes getbit (pdu.ext % 2) (.raw (natBits 1 pdu.ext)) := by
    rw [← natBits_mod 1 pdu.ext]
    exact decodes_getbit (Nat.mod_lt _ (by omega))
  exact hext.bind (hlen.bind (decodes_decIEs junk h (by simpa using hsize)))

/-- What was encoded into a buffer is decoded from a copy of its octets. -/
theorem run_localBuffer {α : Type} {enc : BinaryData → BinaryData} {f : BitFormat} {x : Decoder α} {v : α}
    (henc : Encodes enc f) (hdec : Decodes x v f) (hsize : f.stop 0 ≤ 2 ^ 31) (m : Mem) :
    ∃ d, x (localBuffer m (enc .empty).octets) = .ok (v, d) := by
  have hlen : (enc .empty).length.toNat = f.stop 0 := by
    rw [henc.length_empty, UInt32.toNat_ofNat', Nat.mod_eq_of_lt (by omega)]
  have hdata : (enc .empty).data = 0 := (henc _ BinaryData.clean_empty).data
  have hle := le_octetsFor (f.stop 0)
  have hlt := octetsFor_lt (f.stop 0)
  have hoctets : (enc .empty).octets = (enc .empty).mem.read 0 (octetsFor (f.stop 0)) := by
    rw [BinaryData.octets, hdata, hlen]
  have hcopy : ∀ k, k < octetsFor (f.stop 0) →
      m.copy (Mem.ofList (enc .empty).octets) 0 (enc .empty).octets.length k = (enc .empty).mem k := fun k hk => by
    rw [hoctets, Mem.length_read, Mem.copy_of_mem _ _ _ _ _ (Nat.zero_le k) (by omega), Nat.sub_zero, Mem.ofList,
      List.getD_eq_getElem?_getD, Mem.getElem_read _ _ _ _ hk, Nat.zero_add]
    rfl
  have hat : f.At (m.copy (Mem.ofList (enc .empty).octets) 0 (enc .empty).octets.length) 0 :=
    henc.at_empty.congr fun i _ hi => by rw [Mem.bit, Mem.bit, hcopy _ (by omega)]
  obtain ⟨d, hd, -⟩ := hdec.run_ofBuffer (UInt32.ofNat (8 * (enc .empty).octets.length)) hat (by
    rw [hoctets, Mem.length_read, UInt32.toNat_ofNat', Nat.mod_eq_of_lt (by omega)]
    exact hle)
  exact ⟨d, hd⟩

def Codecs.container (codecs : Codecs V) (pdu : PDU V) : BinaryData := encElementaryProcedure codecs .empty pdu

/-- A message within the limits of the framing: one of the three alternatives, a container that fits
the local buffers and IEs that the tables can encode and decode. -/
structure Codecs.Frames (codecs : Codecs V) (msg : Message V) : Prop where
  choice : msg.choice + 3 * msg.extension < 3
  criticality : msg.pdu.criticality ≤ 2
  ies : ∀ ie ∈ msg.pdu.value, codecs.RoundTrips ie
  size : octetsFor (codecs.container msg.pdu).encPos < 4096

def Codecs.messageFormat (codecs : Codecs V) (msg : Message V) : BitFormat :=
  (BitFormat.raw (natBits 1 msg.extension)).seq ((numberFormat msg.choice 0 2).seq
    ((numberFormat msg.pdu.procedureCode.toNat 0 255).seq ((numberFormat msg.pdu.criticality 0 2).seq
      (openTypeFormat (codecs.container msg.pdu).octets))))

theorem Codecs.Frames.stop_le (h : codecs.Frames msg) : (codecs.procedureFormat msg.pdu).stop 0 ≤ 8 * 4096 := by
  have hsize := h.size
  have hle := le_octetsFor (codecs.container msg.pdu).encPos
  rw [Codecs.container, (encodes_encElementaryProcedure h.ies).encPos_empty] at hsize hle
  omega

theorem Codecs.Frames.length_octets (h : codecs.Frames msg) : (codecs.container msg.pdu).octets.length < 4096 := by
  have hstop := h.stop_le
  have hsize := h.size
  have henc := encodes_encElementaryProcedure h.ies
  rw [Codecs.container, henc.encPos_empty] at hsize
  rw [BinaryData.octets, Mem.length_read, Codecs.container, henc.length_empty, UInt32.toNat_ofNat',
    Nat.mod_eq_of_lt (by omega)]
  exact hsize

theorem encodes_message (h : codecs.Frames msg) :
    Encodes (fun b => encS1APPDU codecs (setChoiceExt b msg.choice 3 msg.extension) msg.pdu)
      (codecs.messageFormat msg) := by
  have hchoice := h.choice
  have hext : msg.extension = 0 := by omega
  have hopen := encodes_encodeOpenType
    (lt_trans h.length_octets (by omega))
  have hpdu := (encodes_encodeConstrainedNumber msg.pdu.procedureCode.toNat 0 255).seq
    ((encodes_encodeConstrainedNumber msg.pdu.criticality 0 2).seq hopen)
  have hset : ∀ b, setChoiceExt b msg.choice 3 msg.extension =
      encodeConstrainedNumber (setbits b 1 msg.extension) msg.choice 0 2 := fun b => by
    simp [setChoiceExt, hext]
  have hall := (encodes_setbits (n := 1) msg.extension (by omega) (by omega) (by omega)).seq
    ((encodes_encodeConstrainedNumber msg.choice 0 2).seq hpdu)
  simp only [hset]
  exact hall

theorem decodes_decContainer (h : codecs.Frames msg) :
    Decodes (decContainer codecs junk (codecs.container msg.pdu).octets) (msg.pdu.value.map (·.decoded)) .nil :=
  fun d hpos _ _ => by
    have hstop := h.stop_le
    have hcount := length_value_le hstop
    obtain ⟨d', hd'⟩ := run_localBuffer (encodes_encElementaryProcedure h.ies)
      (decodes_decElementaryProcedure junk h.ies (by omega)) (by omega) (junk d)
    refine ⟨d, ?_, .refl hpos⟩
    show (decElementaryProcedure codecs junk (localBuffer (junk d) (codecs.container msg.pdu).octets) >>=
      fun v => Except.ok (v, d)) >>= _ = _
    rw [Codecs.container, hd']
    rfl

theorem decodes_decS1APPDU (h : codecs.Frames msg) : Decodes (decS1APPDU codecs junk) msg.decoded.pdu
    ((numberFormat msg.pdu.procedureCode.toNat 0 255).seq ((numberFormat msg.pdu.criticality 0 2).seq
      (openTypeFormat (codecs.container msg.pdu).octets))) := by
  have hcode :=
    decodes_decodeConstrainedNumber (Nat.zero_le _) (Nat.le_of_lt_succ msg.pdu.procedureCode.toNat_lt) (by omega)
      (by omega)
  have hcrit := decodes_decodeConstrainedNumber (Nat.zero_le _) h.criticality (by omega) (by omega)
  have hlen := h.length_octets
  have hopen := decodes_decodeOpenType (by omega) (le_of_lt hlen)
  have hvalue := (decodes_decContainer junk h).map fun value =>
    (⟨UInt8.ofNat msg.pdu.procedureCode.toNat, msg.pdu.criticality, 0, value⟩ : PDU (Option V))
  have hrest := hopen.bind (k := fun octets => decContainer codecs junk octets >>= fun value =>
    pure (⟨UInt8.ofNat msg.pdu.procedureCode.toNat, msg.pdu.criticality, 0, value⟩ : PDU (Option V))) hvalue
  have hpdu : (⟨UInt8.ofNat msg.pdu.procedureCode.toNat, msg.pdu.criticality, 0, msg.pdu.value.map (·.decoded)⟩ :
      PDU (Option V)) = msg.decoded.pdu := by
    rw [UInt8.ofNat_toNat]
    rfl
  rw [BitFormat.seq_nil, hpdu] at hrest
  exact hcode.bind (hcrit.bind hrest)

theorem decodes_message (h : codecs.Frames msg) : Decodes (do
      let ext ← getbit
      let choice ← getchoice 3 ext
      if choice + ext * 3 < 3 then
        let pdu ← decS1APPDU codecs junk
        return { choice, extension := ext, pdu }
      else
        return { choice, extension := ext, pdu := ⟨0, 0, 0, []⟩ }) msg.decoded (codecs.messageFormat msg) := by
  have hchoice := h.choice
  have hget : Decodes getbit msg.extension (.raw (natBits 1 msg.extension)) := decodes_getbit (by omega)
  have halt : Decodes (getchoice 3 msg.extension) msg.choice (numberFormat msg.choice 0 2) := by
    rw [getchoice, if_neg (by omega), if_neg (by omega)]
    exact decodes_decodeConstrainedNumber (Nat.zero_le _) (by omega) (by omega) (by omega)
  have hpdu := (decodes_decS1APPDU junk h).map fun pdu =>
    (⟨msg.choice, msg.extension, pdu⟩ : Message (Option V))
  refine hget.bind (halt.bind ?_)
  rw [if_pos (by omega)]
  exact hpdu

theorem stop_octetsFormat_le (l : List UInt8) (p : Nat) : (octetsFormat l).stop p ≤ p + 7 + 8 * l.length := by
  have hpad := BitFormat.stop_align p
  rw [octetsFormat, BitFormat.stop_seq, BitFormat.stop_raw, length_bitsOfOctets]
  omega

theorem Codecs.Frames.stop_message_le (h : codecs.Frames msg) : (codecs.messageFormat msg).stop 0 ≤ 2 ^ 16 := by
  have hlen := h.length_octets
  have hlen' := length_lengthOctets_le (codecs.container msg.pdu).octets.length
  have hchoice : ∀ p v, (numberFormat v 0 2).stop p = p + 2 := fun p v => by
    simp [numberFormat, rangeOf, bitFieldFormat, fieldWidth]
  have hcode : ∀ p, (numberFormat msg.pdu.procedureCode.toNat 0 255).stop p ≤ p + 15 := fun p =>
    stop_octetsFormat_le [UInt8.ofNat (val2 msg.pdu.procedureCode.toNat 0)] p
  have hfirst := hcode 3
  have hlength := stop_octetsFormat_le (lengthOctets (codecs.container msg.pdu).octets.length)
    ((numberFormat msg.pdu.procedureCode.toNat 0 255).stop 3 + 2)
  have hoctets := stop_octetsFormat_le (codecs.container msg.pdu).octets
    ((octetsFormat (lengthOctets (codecs.container msg.pdu).octets.length)).stop
      ((numberFormat msg.pdu.procedureCode.toNat 0 255).stop 3 + 2))
  simp only [Codecs.messageFormat, BitFormat.stop_seq, BitFormat.stop_raw, length_natBits, hchoice, openTypeFormat,
    Nat.reduceAdd]
  omega

/-- A message comes back as it was encoded: the choice, the procedure code, the criticality and the IEs
in their order. -/
theorem message_round_trip (codecs : Codecs V) (junk : BinaryData → Mem) (msg : Message V)
    (h : codecs.Frames msg) :
    s1apDecode codecs junk (s1apEncode codecs msg).1 (s1apEncode codecs msg).2 = .ok msg.decoded := by
  have henc := encodes_message h
  have hstop := h.stop_message_le
  have hle := le_octetsFor ((codecs.messageFormat msg).stop 0)
  have hlt := octetsFor_lt ((codecs.messageFormat msg).stop 0)
  have hsize : (s1apEncode codecs msg).2 = octetsFor ((codecs.messageFormat msg).stop 0) := by
    rw [s1apEncode, henc.length_empty, UInt32.toNat_ofNat', Nat.mod_eq_of_lt (by omega)]
  obtain ⟨d, hd, -⟩ := (decodes_message junk h).run_ofBuffer
    (UInt32.ofNat ((s1apEncode codecs msg).2 * 8)) henc.at_empty (by
      rw [UInt32.toNat_ofNat']
      omega)
  exact congrArg (Functor.map Prod.fst) hd

end Framing

/-! ## Two entries of the tables -/

/-- The largest value of an id: `MME-UE-S1AP-ID` is IE 0, `eNB-UE-S1AP-ID` is IE 8. -/
def ueIdMax (id : UInt16) : Option Nat :=
  if id = 0 then some 4294967295 else if id = 8 then some 16777215 else none

/-- The entries of the tables for the two ids of a UE: `enc_MME_UE_S1AP_ID`, `enc_ENB_UE_S1AP_ID` and their
decoders. -/
def ueIdCodecs : Codecs Nat where
  enc id := (ueIdMax id).map fun ub b v => encodeConstrainedNumber b v 0 ub
  dec id := (ueIdMax id).map fun ub => StateT.run' (decodeConstrainedNumber 0 ub)

theorem roundTrips_ueIdCodecs {ie : ProtocolIE Nat} (ub : Nat) (hub : ueIdMax ie.id = some ub) (hlt : ub < 2 ^ 32)
    (hle : ie.value ≤ ub) (hcrit : ie.criticality ≤ 2) (hsize : (ueIdCodecs.octets ie).length < 4096)
    (hstop : (numberFormat ie.value 0 ub).stop 0 ≤ 2 ^ 31) : ueIdCodecs.RoundTrips ie where
  criticality := hcrit
  enc := by simp [ueIdCodecs, hub]
  size := hsize
  dec := by
    have hoctets : ueIdCodecs.octets ie = (encodeConstrainedNumber .empty ie.value 0 ub).octets := by
      simp [Codecs.octets, ueIdCodecs, hub]
    refine ⟨StateT.run' (decodeConstrainedNumber 0 ub), by simp [ueIdCodecs, hub], fun m => ?_⟩
    obtain ⟨d, hd⟩ := run_localBuffer (encodes_encodeConstrainedNumber ie.value 0 ub)
      (decodes_decodeConstrainedNumber (Nat.zero_le _) hle hlt (.inr rfl)) hstop m
    rw [hoctets]
    exact congrArg (Functor.map Prod.fst) hd

/-- A UE context release with the two ids of a UE. -/
def ueContextRelease : Message Nat := ⟨0, 0, ⟨23, 0, 0, [⟨0, 0, 1⟩, ⟨8, 0, 70000⟩]⟩⟩

theorem frames_ueContextRelease : ueIdCodecs.Frames ueContextRelease where
  choice := by decide
  criticality := by decide
  ies ie hie := by
    have hcases : ie = ⟨0, 0, 1⟩ ∨ ie = ⟨8, 0, 70000⟩ := by simpa [ueContextRelease] using hie
    rcases hcases with rfl | rfl
    · exact roundTrips_ueIdCodecs 4294967295 rfl (by decide) (by decide) (by decide) (by decide +kernel)
        (by decide +kernel)
    · exact roundTrips_ueIdCodecs 16777215 rfl (by decide) (by decide) (by decide) (by decide +kernel)
        (by decide +kernel)
  size := by decide +kernel

theorem message_round_trip_release : s1apDecode ueIdCodecs (fun _ _ => 0xFF) (s1apEncode ueIdCodecs ueContextRelease).1
    (s1apEncode ueIdCodecs ueContextRelease).2 =
      .ok ⟨0, 0, ⟨23, 0, 0, [⟨0, 0, some 1⟩, ⟨8, 0, some 70000⟩]⟩⟩ :=
  message_round_trip ueIdCodecs (fun _ _ => 0xFF) ueContextRelease frames_ueContextRelease

end AaltoMME.S1AP
