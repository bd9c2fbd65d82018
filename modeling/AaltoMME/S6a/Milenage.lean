import AaltoMME.S6a.HSS

/-!
# Authentication and key agreement

`milenage.c` computes the vectors of the HSS with AES-128.  What they are for is the protocol with a USIM that has the
keys of the subscriber.  The USIM accepts a challenge whose number is greater than its own; any other challenge it
answers with a token that tells its number, and the HSS goes on from there.
-/

namespace AaltoMME

open Base NAS

variable (P : Prims)

/-! ## The algorithms -/

/-- `milenage_f1`: MAC-A and MAC-S. -/
def milenageF1 (opc k rAND sqn amf : List UInt8) : List UInt8 × List UInt8 :=
  let temp := P.aes128 k (xorBlock rAND opc)
  let half := sqn.take 6 ++ amf.take 2
  let tmp3 := xorBlock ((xorBlock (half ++ half) opc).rotateRight 8) temp
  let out := xorBlock (P.aes128 k tmp3) opc
  (out.take 8, out.drop 8)

structure F2345 where
  res : List UInt8
  ck : List UInt8
  ik : List UInt8
  ak : List UInt8
  akstar : List UInt8

/-- `milenage_f2345`. -/
def milenageF2345 (opc k rAND : List UInt8) : F2345 :=
  let temp := P.aes128 k (xorBlock rAND opc)
  -- The outputs differ in how far the block is rotated and in the constant for its last octet.
  let out (r : Nat) (c : UInt8) : List UInt8 :=
    xorBlock (P.aes128 k (((xorBlock temp opc).rotateRight r).modify 15 (· ^^^ c))) opc
  { res := (out 0 1).drop 8
    ck := out 12 2
    ik := out 8 4
    ak := (out 0 1).take 6
    akstar := (out 4 8).take 6 }

def milenageGenerate (opc amf k sqn rAND : List UInt8) : List UInt8 × List UInt8 × List UInt8 × List UInt8 :=
  let f := milenageF2345 P opc k rAND
  (xorBlock (sqn.take 6) f.ak ++ amf.take 2 ++ (milenageF1 P opc k rAND sqn amf).1, f.ik, f.ck, f.res)

def milenageAuts (opc k rAND auts : List UInt8) : Option (Octets 6) :=
  let sqn := Octets.binary 6 (xorBlock (auts.take 6) (milenageF2345 P opc k rAND).akstar)
  if (milenageF1 P opc k rAND sqn [0, 0]).2 = (auts.drop 6).take 8 then some sqn else none

def milenage : Milenage where
  getOPC op k := .binary 16 (xorBlock op (P.aes128 k op))
  generate := milenageGenerate P
  auts := milenageAuts P

/-! ## The USIM -/

/-- The keys of a subscriber, and the number of the last challenge that was accepted. -/
structure USIM where
  k : List UInt8
  opc : Octets 16
  sqn : Octets 6

inductive USIMAnswer
  | response (res kasme : List UInt8)
  | synchFailure (auts : List UInt8)
  | macFailure
  deriving DecidableEq, Repr

namespace USIM

/-- The token with the number of the USIM. -/
def auts (u : USIM) (rAND : List UInt8) : List UInt8 :=
  xorBlock u.sqn (milenageF2345 P u.opc u.k rAND).akstar ++ (milenageF1 P u.opc u.k rAND u.sqn [0, 0]).2

/-- The answer to a challenge, with the key if it is accepted. -/
def answer (u : USIM) (sn rAND autn : List UInt8) : USIMAnswer :=
  let f := milenageF2345 P u.opc u.k rAND
  let sqn := xorBlock (autn.take 6) f.ak
  if (milenageF1 P u.opc u.k rAND sqn ((autn.drop 6).take 2)).1 ≠ autn.drop 8 then .macFailure
  else if natOfOctets u.sqn < natOfOctets sqn then .response f.res (HSS.generateKasme P f.ck f.ik sn autn)
  else .synchFailure (u.auts P rAND)

/-- The HSS has a row with the keys of the USIM. -/
structure Subscribed (u : USIM) (db : HSS) (id : SubscriberId) (p : SubscriberProfile) (o : Operator) : Prop where
  row : db.authparams id = some (p, o)
  k : p.k = u.k
  opc : p.opc.getD ((milenage P).getOPC o.op p.k) = u.opc
  amf : o.amf.length = 2

end USIM

/-! ## The parts of the tokens -/

section Tokens

variable {P} (hP : P.BlockSized) (opc : Octets 16) (k rAND : List UInt8)

theorem xorBlock_xorBlock {a b : List UInt8} (h : a.length ≤ b.length) : xorBlock (xorBlock a b) b = a := by
  induction a generalizing b with
  | nil => rfl
  | cons x a ih =>
    cases b with
    | nil => exact absurd h (by simp)
    | cons y b =>
      have hx : x ^^^ y ^^^ y = x := by rw [UInt8.xor_assoc, UInt8.xor_self, UInt8.xor_zero]
      exact congrArg₂ List.cons hx (ih (Nat.le_of_succ_le_succ h))

theorem length_xorBlock {n : Nat} {a b : List UInt8} (ha : a.length = n) (hb : b.length = n) :
    (xorBlock a b).length = n := by
  rw [xorBlock, List.length_zipWith, ha, hb, Nat.min_self]

include hP in
theorem length_ak : (milenageF2345 P opc k rAND).ak.length = 6 := by
  rw [milenageF2345, List.length_take, length_xorBlock (hP ..) opc.2]
  rfl

include hP in
theorem length_akstar : (milenageF2345 P opc k rAND).akstar.length = 6 := by
  rw [milenageF2345, List.length_take, length_xorBlock (hP ..) opc.2]
  rfl

include hP in
theorem length_macS (sqn amf : List UInt8) : (milenageF1 P opc k rAND sqn amf).2.length = 8 := by
  rw [milenageF1, List.length_drop, length_xorBlock (hP ..) opc.2]

end Tokens

/-! ## The protocol -/

namespace USIM

variable {P} {u : USIM} {db : HSS} {id : SubscriberId} {p : SubscriberProfile} {o : Operator} (sn rAND : List UInt8)

/-- The HSS accepts the tokens of the USIM and no others, and learns its number from them. -/
theorem milenageAuts_eq_some (hP : P.BlockSized) {auts : List UInt8} (hauts : auts.length = 14) (sqn : Octets 6) :
    milenageAuts P u.opc u.k rAND auts = some sqn ↔ auts = { u with sqn }.auts P rAND := by
  have hlen : (auts.drop 6).length = 8 := by rw [List.length_drop, hauts]
  have htake : (auts.take 6).length = 6 := by rw [List.length_take, hauts]; rfl
  have hstar := length_akstar hP u.opc u.k rAND
  simp only [milenageAuts, USIM.auts, List.take_of_length_le (Nat.le_of_eq hlen)]
  generalize (milenageF2345 P u.opc u.k rAND).akstar = ak at hstar
  constructor
  · intro h
    obtain ⟨hmac, h⟩ := Option.ite_none_right_eq_some.mp h
    have hsqn : sqn.1 = xorBlock (auts.take 6) ak := by
      rw [← Option.some.inj h]
      exact congrArg Subtype.val (HSS.binary_eq ⟨_, length_xorBlock htake hstar⟩)
    rw [Option.some.inj h] at hmac
    rw [hsqn, xorBlock_xorBlock (by omega), ← hsqn, hmac, List.take_append_drop]
  · intro h
    have hsize := length_xorBlock sqn.2 hstar
    rw [h, List.take_left' hsize, List.drop_left' hsize, xorBlock_xorBlock (Nat.le_of_eq (sqn.2.trans hstar.symm)),
      HSS.binary_eq, if_pos rfl]

theorem length_auts (hP : P.BlockSized) : (u.auts P rAND).length = 14 := by
  rw [USIM.auts, List.length_append, length_xorBlock u.sqn.2 (length_akstar hP ..), length_macS hP]

/-- The vector that the HSS computes with the keys of the USIM. -/
def vector (P : Prims) (u : USIM) (sn rAND amf : List UInt8) (sqn : Octets 6) : AuthQuadruplet :=
  let f := milenageF2345 P u.opc u.k rAND
  let autn := xorBlock sqn f.ak ++ amf ++ (milenageF1 P u.opc u.k rAND sqn amf).1
  ⟨rAND, f.res, autn, HSS.generateKasme P f.ck f.ik sn autn⟩

/-- The USIM finds the vector genuine, and both sides derive the same key. -/
theorem answer_vector (hP : P.BlockSized) {amf : List UInt8} (hamf : amf.length = 2) (sqn : Octets 6) :
    u.answer P sn rAND (u.vector P sn rAND amf sqn).aUTN =
      if natOfOctets u.sqn < natOfOctets sqn then
        .response (u.vector P sn rAND amf sqn).xRES (u.vector P sn rAND amf sqn).kASME
      else .synchFailure (u.auts P rAND) := by
  have hak := length_ak hP u.opc u.k rAND
  have hsize := length_xorBlock sqn.2 hak
  have htake : (u.vector P sn rAND amf sqn).aUTN.take 6 = xorBlock sqn (milenageF2345 P u.opc u.k rAND).ak := by
    rw [vector, List.append_assoc, List.take_left' hsize]
  have hdrop : ((u.vector P sn rAND amf sqn).aUTN.drop 6).take 2 = amf := by
    rw [vector, List.append_assoc, List.drop_left' hsize, List.take_left' hamf]
  have hmac : (u.vector P sn rAND amf sqn).aUTN.drop 8 = (milenageF1 P u.opc u.k rAND sqn amf).1 := by
    rw [vector, List.drop_left' (by rw [List.length_append, hsize, hamf])]
  simp only [answer, htake, hdrop, hmac, xorBlock_xorBlock (Nat.le_of_eq (sqn.2.trans hak.symm)), ne_eq,
    not_true_eq_false, if_false]
  rfl

namespace Subscribed

theorem newVector_eq (h : u.Subscribed P db id p o) (db' : HSS) (sqnMs : Option (Octets 6)) (sqn : Octets 6) :
    db'.newVector P (milenage P) id p o sqnMs sqn sn rAND =
      (u.vector P sn rAND o.amf sqn, db'.insertAuthVector id sqnMs sqn u.opc) := by
  simp only [HSS.newVector, h.opc]
  simp only [h.k, milenage, milenageGenerate, List.take_of_length_le (Nat.le_of_eq sqn.2),
    List.take_of_length_le (Nat.le_of_eq h.amf)]
  rfl

/-- A vector leaves the keys as they are, and that of the subscriber its number in the row. -/
theorem insertAuthVector (h : u.Subscribed P db id p o) (sqnMs : Option (Octets 6)) (sqn : Octets 6) :
    ∃ p', u.Subscribed P (db.insertAuthVector id sqnMs sqn u.opc) id p' o ∧ p'.sqn = some sqn := by
  obtain ⟨p', hp, hrow⟩ := Option.bind_eq_some_iff.mp h.row
  obtain ⟨o', ho, hrow⟩ := Option.bind_eq_some_iff.mp hrow
  cases hrow
  refine ⟨{ p with sqn := some sqn, opc := some u.opc }, ⟨?_, h.k, rfl, h.amf⟩, rfl⟩
  simp [HSS.authparams, HSS.insertAuthVector, hp, ho, HSS.binary_unhex]

theorem step (h : u.Subscribed P db id p o) {b : Octets 6} (hsqn : p.sqn = some b) {call : HssCall} {db' : HSS}
    (hstep : db.step P (milenage P) call = .ok db') : ∃ p' b', u.Subscribed P db' id p' o ∧ p'.sqn = some b' := by
  obtain rfl | ⟨id', p', o', b', sqnMs, hrow, -, rfl⟩ := HSS.step_eq_ok hstep
  · exact ⟨p, b, h, hsqn⟩
  by_cases hid : id' = id
  · subst hid
    cases h.row.symm.trans hrow
    rw [h.opc]
    obtain ⟨p', h', hsqn'⟩ := h.insertAuthVector sqnMs (increaseSQN (sqnMs.getD b'))
    exact ⟨p', _, h', hsqn'⟩
  · refine ⟨p, b, { h with row := ?_ }, hsqn⟩
    rw [← h.row]
    simp only [HSS.authparams, HSS.insertAuthVector, Function.update_of_ne (Ne.symm hid)]

theorem run (h : u.Subscribed P db id p o) {b : Octets 6} (hsqn : p.sqn = some b) {calls : List HssCall} {db' : HSS}
    (hrun : Run (HSS.step P (milenage P)) (fun _ _ => True) db calls db') :
    ∃ p' b', u.Subscribed P db' id p' o ∧ p'.sqn = some b' := by
  induction hrun with
  | nil => exact ⟨p, b, h, hsqn⟩
  | snoc _ _ hstep ih =>
    obtain ⟨p', b', h', hsqn'⟩ := ih
    exact h'.step hsqn' hstep

/-- A resynchronisation goes on after the number in the token. -/
theorem syncAuthVec_eq {imsi : UInt64} (h : u.Subscribed P db (.ofIMSI imsi) p o) {b : Octets 6} (hsqn : p.sqn = some b)
    (q : AuthQuadruplet) (auts : List UInt8) :
    db.syncAuthVec P (milenage P) imsi sn rAND q auts =
      match milenageAuts P u.opc u.k q.rAND auts with
      | none => .ok (.invalidAuts, db)
      | some s =>
        if s = b then .ok (.alreadySynchronized, db)
        else .ok (.vector (u.vector P sn rAND o.amf (increaseSQN s)),
          db.insertAuthVector (.ofIMSI imsi) (some s) (increaseSQN s) u.opc) := by
  have hauts : (milenage P).auts u.opc p.k q.rAND auts = milenageAuts P u.opc u.k q.rAND auts := by rw [h.k]; rfl
  simp only [HSS.syncAuthVec, h.row, hsqn, HSS.column, ok_bind, h.opc, hauts, h.newVector_eq]
  cases milenageAuts P u.opc u.k q.rAND auts with
  | none => rfl
  | some s =>
    dsimp only
    split <;> rfl

theorem storedSQN_eq (h : u.Subscribed P db id p o) : db.storedSQN id = p.sqn := by
  obtain ⟨p', hp, hrow⟩ := Option.bind_eq_some_iff.mp h.row
  obtain ⟨o', -, hrow⟩ := Option.bind_eq_some_iff.mp hrow
  cases hrow
  rw [HSS.storedSQN, hp]
  rfl

end Subscribed

namespace Sample

def prims : Prims := .ofAnswers [] [] fun _ => 0

def usim : USIM := ⟨[], .binary 16 [], .binary 6 [1]⟩

def hss : HSS where
  profiles id := if id = ⟨0, 0, 1⟩ then some ⟨[], some (.binary 16 []), some (.binary 6 [0, 7])⟩ else none
  operators _ _ := some ⟨[], [0x80, 0]⟩
  generated := []

theorem subscribed : usim.Subscribed prims hss (.ofIMSI 1) ⟨[], some (.binary 16 []), some (.binary 6 [0, 7])⟩
    ⟨[], [0x80, 0]⟩ :=
  ⟨rfl, rfl, rfl, rfl⟩

end Sample

end USIM

end AaltoMME
