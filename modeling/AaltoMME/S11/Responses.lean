import AaltoMME.ESM.Session
import AaltoMME.GTP.IE

/-!
# S11 users: packets from the serving gateway

The side of `S11_User.c` and of its states that handles received packets.  A packet is given by its
header fields and its list of information elements; the elements inside a bearer context are read from
the octets of that element, as `gtp2ie_decaps_group` does.  Whether a response reports success is only
logged.
-/

namespace AaltoMME

open Base NAS

/-- A received packet. -/
structure GtpPacket where
  peer : Option SockAddr
  type : UInt8
  tei : UInt32
  seq : UInt32
  ies : List GtpIE
  deriving DecidableEq, Repr

/-! ## Information elements -/

def gtpv2cIECause : UInt8 := 2
def gtpv2cIERecovery : UInt8 := 3
def gtpv2cIEEBI : UInt8 := 73
def gtpv2cIEPCO : UInt8 := 78
def gtpv2cIEPAA : UInt8 := 79
def gtpv2cIEFTEID : UInt8 := 87
def gtpv2cIEBearerContext : UInt8 := 93

/-- `gtp2ie_gettliv`: the value of the first element with a type and instance. -/
def gtp2ieGettliv (ies : List GtpIE) (t i : UInt8) : Option (List UInt8) :=
  (ies.find? fun e => e.t = t ∧ e.i = i).map (·.v)

/-- The length of the element at an offset of a group. -/
def groupLength (m : Mem) (o : Nat) : Nat := (m (o + 1)).toNat * 256 + (m (o + 2)).toNat

/-- The loop of `gtp2ie_decaps_group`: the offsets of the elements, and whether the last one ends
with the group, so that a NULL pointer follows. -/
def gtp2ieDecapsGroup (m : Mem) (len : Nat) : Nat → Nat → List Nat × Bool
  | 0, p => ([], p == len)
  | fuel + 1, p =>
    if p < len then
      let (os, b) := gtp2ieDecapsGroup m len fuel (p + 4 + groupLength m p)
      (p :: os, b)
    else ([], p == len)

/-- `gtp2ie_gettliv` on the elements of a group. -/
def groupGettliv (m : Mem) (os : List Nat) (t i : UInt8) : Option (List UInt8) :=
  (os.find? fun o => m o = t ∧ m (o + 3) = i).map fun o => m.read (o + 4) (groupLength m o)

/-- An element that is present and not empty. -/
def nonEmpty (v : Option (List UInt8)) : Option (List UInt8) := v.filter (· ≠ [])

/-- `memcpy` to the start of a local array. -/
def overwrite (m : Mem) (v : List UInt8) : Mem := m.copy (.ofList v) 0 v.length

/-! ## Peers -/

/-- `s11peer_hasRestarted`; the result is only logged. -/
def S11Stack.checkPeerRestart (s : S11Stack) (rAddr : Option SockAddr) (counter : UInt8) : S11Stack :=
  match s.peers.get rAddr with
  | none => s
  | some p =>
    let restartCounter := if counter > p.restartCounter || (counter < 2 && p.restartCounter > 254)
      then counter else p.restartCounter
    { s with peers := s.peers.insert rAddr { p with restartCounter, restartValid := true } }

namespace EMMCtx

variable (P : Prims) (env : Env) (c : EMMCtx)

/-! ## Parsing -/

/-- `accepted`: the result of the test `vsize=2`, an assignment, is true.  The cause is read into two
octets on the stack. -/
def s11Accepted (pkt : GtpPacket) : Outcome Bool :=
  match gtp2ieGettliv pkt.ies gtpv2cIECause 0 with
  | none => .ok (env.junk == 16)
  | some v => if 2 < v.length then .error .overflow else .ok (v.headD env.junk == 16)

/-- `ePSsession_setPDNAddress`. -/
def setPDNAddress (s : EPSSession) (paa : List UInt8) : Outcome EPSSession :=
  if 20 < paa.tail.length then .error .overflow
  else .ok { s with
    pdnAddrType := paa.headD 0 &&& 0x07
    pdnAddr := paa.tail ++ s.pdnAddr.drop paa.tail.length }

/-- `ePSsession_setPCO`. -/
def setPCO (s : EPSSession) (pco : List UInt8) : Outcome EPSSession :=
  if 255 < pco.length then .error .overflow else .ok { s with pco := some pco }

/-- `esm_bc_setS1uSGWfteid` and `esm_bc_setS5S8uPGWfteid`: the check of the interface type and the
copy. -/
def setFteid (old : Fteid) (value : Mem) (len : Nat) (iface : UInt8) (text : String) : Outcome Fteid :=
  if value 0 &&& 0x3F ≠ iface then .error (.gError text)
  else if 25 < len then .error .overflow
  else .ok (old.write (value.read 0 len))

/-- The bearer context of a Create Session Response.  `false` if its bearer identity is not the one
of the default bearer, in which case `parseCtxRsp` returns at once. -/
def parseBearerCtx (b : BearerContext) (value : Mem) (len : Nat) : Outcome (BearerContext × Bool) := do
  let (os, _) := gtp2ieDecapsGroup value len 256 0
  let bc : Mem := fun _ => env.junk
  let bc := overwrite bc ((groupGettliv value os gtpv2cIEEBI 0).getD [])
  if b.ebi ≠ bc 0 then pure (b, false)
  else
    let (b, bc) ←
      match nonEmpty (groupGettliv value os gtpv2cIEFTEID 0) with
      | none => pure (b, bc)
      | some v => do
        let bc := overwrite bc v
        let s1uSgw ← setFteid b.s1uSgw bc v.length 1 "Unexpected interface type, S1U_SGW expected"
        pure ({ b with s1uSgw }, bc)
    match nonEmpty (groupGettliv value os gtpv2cIEFTEID 2) with
    | none => pure (b, true)
    | some v => do
      let bc := overwrite bc v
      let s5s8uPgw ← setFteid b.s5s8uPgw bc v.length 5
        "Unexpected interface type, S5S8U_PGW expected"
      pure ({ b with s5s8uPgw }, true)

/-- The first part of `parseCtxRsp`: the S11 F-TEID of the serving gateway. -/
def parseSgwFteid (u : S11User) (pkt : GtpPacket) : Outcome (Mem × S11User) :=
  match nonEmpty (gtp2ieGettliv pkt.ies gtpv2cIEFTEID 0) with
  | none => .ok (Mem.zero, u)
  | some v =>
    let value := overwrite Mem.zero v
    if value 0 &&& 0x3F ≠ 11 then .error (.gError "Unexpected interface type, S11S4_SGW expected")
    else .ok (value, { u with rTEID := hostUInt32 value 1 })

/-- The S5/S8 F-TEID of the packet data gateway, which is only copied. -/
def parsePgwFteid (value : Mem) (pkt : GtpPacket) : Outcome Mem :=
  match nonEmpty (gtp2ieGettliv pkt.ies gtpv2cIEFTEID 1) with
  | none => .ok value
  | some v => if 25 < v.length then .error .overflow else .ok (overwrite value v)

/-- An element that is copied into the session: the PDN address or the PCO. -/
def parseInto (set : EPSSession → List UInt8 → Outcome EPSSession) (t : UInt8) (value : Mem)
    (s : EPSSession) (pkt : GtpPacket) : Outcome (Mem × EPSSession) :=
  match nonEmpty (gtp2ieGettliv pkt.ies t 0) with
  | none => .ok (value, s)
  | some v => do
    let s ← set s v
    pure (overwrite value v, s)

/-- The bearer context; `false` if `parseCtxRsp` returns after it. -/
def parseBearer (value : Mem) (s : EPSSession) (pkt : GtpPacket) : Outcome (EMMCtx × Mem × Bool) :=
  match nonEmpty (gtp2ieGettliv pkt.ies gtpv2cIEBearerContext 0) with
  | none => .ok (c, value, true)
  | some v => do
    let value := overwrite value v
    let b ← c.bearer s.defaultBearer
    let (b, goOn) ← parseBearerCtx env b value v.length
    pure (c.setBearer b, value, goOn)

/-- The restart counter of the peer. -/
def parseRecovery (value : Mem) (u : S11User) (pkt : GtpPacket) : EMMCtx :=
  match nonEmpty (gtp2ieGettliv pkt.ies gtpv2cIERecovery 0) with
  | none => c
  | some v => { c with s11 := c.s11.checkPeerRestart u.rAddr (overwrite value v 0) }

/-- `parseCtxRsp`.  One array holds every element in turn, so what an element does not overwrite stays
from the one before. -/
def parseCtxRsp (u : S11User) (pkt : GtpPacket) : Outcome (EMMCtx × S11User) := do
  let (value, u) ← parseSgwFteid u pkt
  let value ← parsePgwFteid value pkt
  let s ← c.session u.session
  let (value, s) ← parseInto setPDNAddress gtpv2cIEPAA value s pkt
  let (value, s) ← parseInto setPCO gtpv2cIEPCO value s pkt
  let (c, value, goOn) ← (c.setSession s).parseBearer env value s pkt
  pure (if goOn then c.parseRecovery value u pkt else c, u)

/-- `gtp2ie_gettliv` on a group whose array of pointers is not initialised, into 40 octets on the
stack. -/
def groupGettlivUnset (value : Mem) (group : List Nat × Bool) (t : UInt8) :
    Outcome (Option (List UInt8)) :=
  match groupGettliv value group.1 t 0 with
  | none => if group.2 then .ok none else .error .uninitialised
  | some v => if 40 < v.length then .error .overflow else .ok (some v)

/-- `parseModBearerRsp`: whether it ended without an error.  The elements of the group are read into
the array that holds the group. -/
def parseModBearerRsp (u : S11User) (pkt : GtpPacket) : Outcome Bool :=
  match nonEmpty (gtp2ieGettliv pkt.ies gtpv2cIEBearerContext 0) with
  | none => .ok true
  | some v =>
    if 40 < v.length then .error .overflow
    else do
      let value := overwrite (fun _ => env.junk) v
      let group := gtp2ieDecapsGroup value v.length 256 0
      let ebi ← groupGettlivUnset value group gtpv2cIEEBI
      let value := overwrite value (ebi.getD [])
      let s ← c.session u.session
      let b ← c.bearer s.defaultBearer
      if (ebi.getD []).length ≠ 1 && b.ebi ≠ value 0 then pure false
      else
        let fteid ← groupGettlivUnset value group gtpv2cIEFTEID
        if 25 < (fteid.getD []).length then .error .overflow else pure true

/-! ## The states -/

/-- `returnControlAndRemoveSession`. -/
def returnControlAndRemoveSession (u : S11User) : Outcome EMMCtx := do
  let s ← { c.s11 with users := c.s11.users.remove u.lTEID }.unrefSession u.rAddr
  { c with s11 := s }.runOptS11Cb P env u.cb

/-- `sendDownlinkDataNotificationAck`, which frees the transaction, and `dl_data_not`. -/
def downlinkDataNotification (u : S11User) (seq : UInt32) : Outcome EMMCtx := do
  let c ← c.s11Send env u seq .downlinkDataNotificationAck
  let u := if (u.trxns.get seq).isSome then { u with trxns := u.trxns.insert seq false }
    else { u with loose := u.loose - 1 }
  pure ((c.setUser u).log .paging)

/-- `processMsg` of the state of a user. -/
def s11StateProcessMsg (u : S11User) (pkt : GtpPacket) : Outcome EMMCtx :=
  match u.state with
  | .noCtx | .ctx => .ok c
  | .wCtxRsp =>
    if pkt.type = 33 then do
      let _ ← s11Accepted env pkt
      let (c, u) ← c.parseCtxRsp env u pkt
      (c.setUser { u with state := .ulCtx }).runOptS11Cb P env u.cb
    else .ok c
  | .ulCtx => if pkt.type = 176 then c.downlinkDataNotification env u pkt.seq else .ok c
  | .wModBearerRsp =>
    if pkt.type = 35 then do
      let _ ← s11Accepted env pkt
      if ← c.parseModBearerRsp env u pkt then
        (c.setUser { u with state := .ctx }).runOptS11Cb P env u.cb
      else pure c
    else if pkt.type = 171 then do
      let _ ← s11Accepted env pkt
      (c.setUser { u with state := .ulCtx }).runOptS11Cb P env u.cb
    else .ok c
  | .wDel =>
    if pkt.type = 37 then do
      let _ ← s11Accepted env pkt
      c.returnControlAndRemoveSession P env { u with rTEID := 0, state := .noCtx }
    else .ok c

/-- The transaction of a packet: both branches of the lookup leave one with its sequence number, in
the table or outside of it. -/
def findTrxn (u : S11User) (seq : UInt32) : Outcome S11User :=
  match u.trxns.get seq with
  | some true => .ok u
  | some false => .error .useAfterFree
  | none => .ok { u with loose := u.loose + 1 }

/-- `processMsg`. -/
def s11ProcessMsg (u : S11User) (pkt : GtpPacket) : Outcome EMMCtx := do
  let u ← findTrxn u pkt.seq
  let c := c.setUser u
  if u.rAddr ≠ pkt.peer then pure c else c.s11StateProcessMsg P env u pkt

/-- `s11_accept` for a packet to one of the users of this context; packets to an unknown TEID are
ignored. -/
def s11Accept (pkt : GtpPacket) : Outcome EMMCtx :=
  match c.s11.users.get pkt.tei with
  | none => .ok c
  | some u => if u.emm = c.self then c.s11ProcessMsg P env u pkt else .ok c

end EMMCtx

end AaltoMME
