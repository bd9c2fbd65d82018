import AaltoMME.NAS.Algorithms

/-!
# The NAS security handler

`NASHandler` holds the algorithms, the keys and the two COUNTs of a NAS security context.  This
file embeds the functions of the NAS library that read or write it: the derivation of the keys,
the sequence number window, the verification of a received message and the protection of a sent
one.  The stored COUNT is the next one expected (uplink) or to be used (downlink).
-/

namespace AaltoMME.NAS

open Base

variable (P : Prims)

/-- `SecurityHeaderType_t`, read from a nibble; `other` stands for the values without a name. -/
inductive SecurityHeaderType
  | plainNAS
  | integrityProtected
  | integrityProtectedAndCiphered
  | integrityProtectedWithNewEPSSecurityContext
  | integrityProtectedAndCipheredWithNewEPSSecurityContext
  | serviceRequest
  | other (v : UInt8)
  deriving DecidableEq, Repr

namespace SecurityHeaderType

/-- The header type encoded by a nibble. -/
def ofNibble (v : UInt8) : SecurityHeaderType :=
  if v = 0 then plainNAS
  else if v = 1 then integrityProtected
  else if v = 2 then integrityProtectedAndCiphered
  else if v = 3 then integrityProtectedWithNewEPSSecurityContext
  else if v = 4 then integrityProtectedAndCipheredWithNewEPSSecurityContext
  else if v = 12 then serviceRequest
  else other v

def octet : SecurityHeaderType → UInt8
  | plainNAS => 0
  | integrityProtected => 1
  | integrityProtectedAndCiphered => 2
  | integrityProtectedWithNewEPSSecurityContext => 3
  | integrityProtectedAndCipheredWithNewEPSSecurityContext => 4
  | serviceRequest => 12
  | other v => v

/-- The four header types of a message with a full MAC and an 8 bit sequence number. -/
def isProtected : SecurityHeaderType → Bool
  | integrityProtected | integrityProtectedAndCiphered
  | integrityProtectedWithNewEPSSecurityContext
  | integrityProtectedAndCipheredWithNewEPSSecurityContext => true
  | _ => false

/-- The two of them that say that the message is ciphered. -/
def isCiphered : SecurityHeaderType → Bool
  | integrityProtectedAndCiphered
  | integrityProtectedAndCipheredWithNewEPSSecurityContext => true
  | _ => false

end SecurityHeaderType

/-- `EPSSessionManagementMessages`, the protocol discriminator of ESM. -/
def epsSessionManagementMessages : UInt8 := 0x2

/-- `EPSMobilityManagementMessages`, the protocol discriminator of EMM. -/
def epsMobilityManagementMessages : UInt8 := 0x7

/-- `NASHandler`. -/
structure NASHandler where
  isValid : Bool
  i : NASEIA
  ikey : List UInt8
  e : NASEEA
  ekey : List UInt8
  nasCount : NASDirection → UInt32

/-- `nas_newHandler`: zeroed memory. -/
def nasNewHandler : NASHandler where
  isValid := false
  i := .eia0
  ikey := List.replicate 16 0
  e := .eea0
  ekey := List.replicate 16 0
  nasCount := fun _ => 0

/-- `nas_setSecurity`. -/
def nasSetSecurity (_h : NASHandler) (i : NASEIA) (e : NASEEA) (kasme : List UInt8) :
    NASHandler where
  isValid := true
  i
  ikey := kdf P kasme 0x02 i.octet
  e
  ekey := kdf P kasme 0x01 e.octet
  nasCount := fun _ => 0

/-- `nas_getHeader`: nothing is written for an empty buffer. -/
def nasGetHeader (buf : Mem) (size : UInt32) : Option (SecurityHeaderType × UInt8) :=
  if size < 1 then none
  else some (.ofNibble ((buf 0 &&& 0xf0) >>> 4), buf 0 &&& 0x0f)

/-- `nas_getLastCount`. -/
def nasGetLastCount (h : NASHandler) (direction : NASDirection) : UInt32 :=
  h.nasCount direction - 1

namespace NASHandler

variable (h : NASHandler) (direction : NASDirection) (recv : UInt8)

/-- Replace the COUNT of one direction. -/
def withCount (c : UInt32) : NASHandler :=
  { h with nasCount := Function.update h.nasCount direction c }

/-- The COUNT that an 8 bit sequence number stands for. -/
def rcvCOUNT : UInt32 := (h.nasCount direction &&& 0xFFFF00) ||| recv.toUInt32

/-- The COUNT that a 5 bit sequence number stands for. -/
def rcvCOUNTshort : UInt32 := (h.nasCount direction &&& 0xFFFFE0) ||| recv.toUInt32

end NASHandler

/-- `nas_incrementNASCount`. -/
def nasIncrementNASCount (h : NASHandler) (direction : NASDirection) : NASHandler :=
  h.withCount direction (h.nasCount direction + 1)

/-- `nas_setCOUNT`. -/
def nasSetCOUNT (h : NASHandler) (direction : NASDirection) (recv : UInt8) : NASHandler :=
  h.withCount direction (h.rcvCOUNT direction recv + 1)

/-- `nas_setCOUNTshort`. -/
def nasSetCOUNTshort (h : NASHandler) (direction : NASDirection) (recv : UInt8) : NASHandler :=
  h.withCount direction (h.rcvCOUNTshort direction recv + 1)

/-- `NAS_COUNT_THRESHOLD`. -/
def nasCountThreshold : UInt32 := 10

/-- `nas_checkCOUNT`. -/
def nasCheckCOUNT (last : UInt32) (recv : UInt8) : Bool :=
  recv.toUInt32 - (last &&& 0xFF) < nasCountThreshold

/-- `nas_checkCOUNTshort`. -/
def nasCheckCOUNTshort (last : UInt32) (recv : UInt8) : Bool :=
  recv.toUInt32 - (last &&& 0x1F) < nasCountThreshold

/-- What `nas_authenticateMsg` leaves: its return value (0 when there is nothing to check, 1 when
the MAC was compared, 2 for a sequence number outside the window), `isAuth` and the handler. -/
structure AuthResult where
  ret : Nat
  isAuth : Bool
  handler : NASHandler

/-- The branch of `nas_authenticateMsg` for the header types 1 to 4. -/
def authenticateProtected (h : NASHandler) (buf : Mem) (size : UInt32)
    (direction : NASDirection) : Outcome AuthResult :=
  let nasSqn := buf 5
  if !nasCheckCOUNT (h.nasCount direction) nasSqn then .ok ⟨2, false, h⟩
  else do
    let macX ← eiaCb P h.i h.ikey (octets32 (h.rcvCOUNT direction nasSqn)) 0 direction.octet
      (buf.shift 5) ((size - 5) * 8).toNat
    if buf.read 1 4 = macX ∨ h.i = .eia0 then .ok ⟨1, true, nasSetCOUNT h direction nasSqn⟩
    else .ok ⟨1, false, h⟩

/-- The branch of `nas_authenticateMsg` for a Service Request, which carries a 5 bit sequence
number and two octets of the MAC. -/
def authenticateServiceRequest (h : NASHandler) (buf : Mem) (direction : NASDirection) :
    Outcome AuthResult :=
  let nasSqn := buf 1 &&& 0x1F
  if !nasCheckCOUNTshort (h.nasCount direction) nasSqn then .ok ⟨2, false, h⟩
  else do
    let macX ← eiaCb P h.i h.ikey (octets32 (h.rcvCOUNTshort direction nasSqn)) 0
      direction.octet buf (2 * 8)
    if buf.read 2 2 = macX.drop 2 ∨ h.i = .eia0 then
      .ok ⟨1, true, nasSetCOUNTshort h direction nasSqn⟩
    else .ok ⟨1, false, h⟩

/-- `nas_authenticateMsg`.  For an empty buffer `nas_getHeader` leaves `s` unwritten. -/
def nasAuthenticateMsg (h : NASHandler) (buf : Mem) (size : UInt32)
    (direction : NASDirection) : Outcome AuthResult :=
  if !h.isValid then .ok ⟨0, false, h⟩
  else
    match nasGetHeader buf size with
    | none => .error .uninitialised
    | some (s, _) =>
      if s.isProtected then authenticateProtected P h buf size direction
      else if s = .serviceRequest then authenticateServiceRequest P h buf direction
      else .ok ⟨0, false, h⟩

/-- `newNASMsg_sec`: the protected message, or `none` where the C function returns 0.  The length
of the text passes through an 8 bit parameter of `nasIe_v_t3`, and the downlink COUNT is the one
incremented, whatever the direction. -/
def newNASMsgSec (h : NASHandler) (p : UInt8) (s : SecurityHeaderType)
    (direction : NASDirection) (plain : List UInt8) :
    Outcome (Option (NASHandler × List UInt8)) :=
  if !h.isValid then .ok none
  else if !s.isProtected then .ok none
  else do
    if s.isCiphered then discard <| eeaCb h.e (Mem.ofList plain)
    let count := octets32 (h.nasCount direction)
    let buf := count.getD 3 0 :: plain
    let mac ← eiaCb P h.i h.ikey count 0 direction.octet (Mem.ofList buf)
      ((plain.length + 1) * 8)
    .ok (some (nasIncrementNASCount h .downLink,
      ((p &&& (0x0F : UInt8)) ||| (s.octet <<< 4)) :: (mac ++ buf.take ((plain.length + 1) % 256))))

variable {P} {h h' : NASHandler} {p : UInt8} {s : SecurityHeaderType} {direction : NASDirection}
  {plain out : List UInt8}

/-- What `newNASMsg_sec` writes, given the digest. -/
def securedPdu (h : NASHandler) (p : UInt8) (s : SecurityHeaderType) (direction : NASDirection)
    (plain mac : List UInt8) : List UInt8 :=
  ((p &&& (0x0F : UInt8)) ||| (s.octet <<< 4)) ::
    (mac ++ ((h.nasCount direction).toUInt8 :: plain).take ((plain.length + 1) % 256))

theorem newNASMsgSec_eq_ok_some :
    newNASMsgSec P h p s direction plain = .ok (some (h', out)) ↔
      h.isValid = true ∧ s.isProtected = true ∧ (s.isCiphered = true → h.e = .eea0) ∧
        ∃ mac, eiaCb P h.i h.ikey (octets32 (h.nasCount direction)) 0 direction.octet
            (Mem.ofList ((h.nasCount direction).toUInt8 :: plain)) ((plain.length + 1) * 8) = .ok mac ∧
          h' = nasIncrementNASCount h .downLink ∧ out = securedPdu h p s direction plain mac := by
  have hsn : (octets32 (h.nasCount direction)).getD 3 0 = (h.nasCount direction).toUInt8 := rfl
  have heea : ∀ text, (∃ t, eeaCb h.e text = .ok t) ↔ h.e = .eea0 := fun text => by
    cases h.e <;> simp [eeaCb]
  constructor
  · intro ho
    simp only [newNASMsgSec] at ho
    split at ho
    · cases ho
    rename_i hv
    split at ho
    · cases ho
    rename_i hs
    refine ⟨by simpa using hv, by simpa using hs, ?_⟩
    split at ho
    · obtain ⟨_, hc, ho⟩ := bind_eq_ok.mp ho
      obtain ⟨mac, hmac, ho⟩ := bind_eq_ok.mp ho
      obtain ⟨text, ht, -⟩ := bind_eq_ok.mp hc
      cases ho
      exact ⟨fun _ => (heea _).mp ⟨text, ht⟩, mac, hmac, rfl, rfl⟩
    · rename_i hc
      obtain ⟨mac, hmac, ho⟩ := bind_eq_ok.mp ho
      cases ho
      exact ⟨fun h => absurd h hc, mac, hmac, rfl, rfl⟩
  · rintro ⟨hv, hs, hc, mac, hmac, rfl, rfl⟩
    simp only [newNASMsgSec, hsn, hv, hs, Bool.not_true, Bool.false_eq_true, if_false, hmac]
    split
    · rename_i hciph
      rw [hc hciph]
      rfl
    · rfl

/-- With a protected header type, only an invalid handler refuses to build a message. -/
theorem isValid_of_newNASMsgSec_none (hs : s.isProtected = true)
    (ho : newNASMsgSec P h p s direction plain = .ok none) : h.isValid = false := by
  simp only [newNASMsgSec, hs] at ho
  split at ho
  · rename_i hv
    simpa using hv
  · split at ho
    · rename_i h'
      cases h'
    split at ho
    · obtain ⟨_, -, ho⟩ := bind_eq_ok.mp ho
      obtain ⟨mac, -, ho⟩ := bind_eq_ok.mp ho
      cases ho
    · obtain ⟨mac, -, ho⟩ := bind_eq_ok.mp ho
      cases ho

end AaltoMME.NAS
