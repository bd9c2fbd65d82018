import AaltoMME.EMM.Context

/-!
# The sequence numbers of the HSS

`HSS.c` computes authentication vectors from the rows of a database and writes the sequence number of each vector back.
The number is a column of six octets.  It is increased by way of a string of hexadecimal digits and `strtoll`, and it
comes back to the column as a hexadecimal literal of the query.  The functions of `milenage.c` are parameters.
-/

namespace AaltoMME

open Base

/-- An array of C. -/
abbrev Octets (n : Nat) : Type := {l : List UInt8 // l.length = n}

/-! ## Hexadecimal strings -/

def hexStr : List Char := "0123456789abcdef".toList

/-- `bin_to_strhex`. -/
def binToStrhex (hexbuf : List UInt8) : List Char :=
  hexbuf.flatMap fun b : UInt8 => [hexStr.getD (b >>> 4).toNat '0', hexStr.getD (b &&& 0x0F).toNat '0']

def hexValue (c : Char) : Option Nat := hexStr.idxOf? c

/-- The number at the start of a string of digits. -/
def hexNumber (n : Nat) : List Char → Nat
  | [] => n
  | c :: s => (hexValue c).elim n fun d => hexNumber (16 * n + d) s

/-- `strtoll` with base 16 on a string without blanks, sign and prefix; the result is cut off at the largest number. -/
def strtoll (s : List Char) : UInt64 := UInt64.ofNat (min (hexNumber 0 s) (2 ^ 63 - 1))

/-- The octets of a hexadecimal literal in a query. -/
def unhex : List Char → List UInt8
  | c :: d :: s => UInt8.ofNat (16 * (hexValue c).getD 0 + (hexValue d).getD 0) :: unhex s
  | _ => []

/-- The loop of `increaseSQN` that copies the number back, from the last octet on. -/
def copyBack : Nat → UInt64 → List UInt8 → List UInt8
  | 0, _, sqn => sqn
  | j + 1, tmp, sqn => copyBack j (tmp >>> 8) ((tmp &&& 0xFF).toUInt8 :: sqn)

theorem copyBack_append (j : Nat) (tmp : UInt64) (l : List UInt8) : copyBack j tmp l = copyBack j tmp [] ++ l := by
  induction j generalizing tmp l with
  | zero => rfl
  | succ j ih =>
    rw [copyBack, ih, copyBack, ih _ [_], List.append_assoc]
    rfl

theorem length_copyBack (j : Nat) (tmp : UInt64) : (copyBack j tmp []).length = j := by
  induction j generalizing tmp with
  | zero => rfl
  | succ j ih => rw [copyBack, copyBack_append, List.length_append, ih, List.length_singleton]

/-- `increaseSQN`. -/
def increaseSQN (sqn : Octets 6) : Octets 6 := ⟨copyBack 6 (strtoll (binToStrhex sqn) + 0x20) [], length_copyBack _ _⟩

theorem hexValue_hexStr {n : Nat} (h : n < 16) : hexValue (hexStr.getD n '0') = some n := by
  have hall : ∀ n : Fin 16, hexValue (hexStr.getD n '0') = some n.1 := by decide
  exact hall ⟨n, h⟩

theorem nibbles (b : UInt8) : (b >>> 4).toNat < 16 ∧ (b &&& 0x0F).toNat < 16 ∧
    16 * (b >>> 4).toNat + (b &&& 0x0F).toNat = b.toNat := by
  have hlow : (b &&& 0x0F).toNat = b.toNat % 16 := by
    rw [UInt8.toNat_and, show (0x0F : UInt8).toNat = 2 ^ 4 - 1 from rfl, Nat.and_two_pow_sub_one_eq_mod]
  have hhigh : (b >>> 4).toNat = b.toNat / 16 := by
    rw [UInt8.toNat_shiftRight, show (4 : UInt8).toNat % 8 = 4 from rfl, Nat.shiftRight_eq_div_pow]
  have hb := b.toNat_lt
  omega

theorem binToStrhex_cons (b : UInt8) (l : List UInt8) : binToStrhex (b :: l) =
    hexStr.getD (b >>> 4).toNat '0' :: hexStr.getD (b &&& 0x0F).toNat '0' :: binToStrhex l := rfl

theorem unhex_binToStrhex (l : List UInt8) : unhex (binToStrhex l) = l := by
  induction l with
  | nil => rfl
  | cons b l ih =>
    obtain ⟨hhigh, hlow, hb⟩ := nibbles b
    rw [binToStrhex_cons, unhex, hexValue_hexStr hhigh, hexValue_hexStr hlow, ih, Option.getD_some, Option.getD_some, hb,
      UInt8.ofNat_toNat]

theorem hexNumber_binToStrhex (n : Nat) (l : List UInt8) :
    hexNumber n (binToStrhex l) = l.foldl (fun n b => n * 256 + b.toNat) n := by
  induction l generalizing n with
  | nil => rfl
  | cons b l ih =>
    obtain ⟨hhigh, hlow, hb⟩ := nibbles b
    rw [binToStrhex_cons, hexNumber, hexValue_hexStr hhigh, Option.elim_some, hexNumber, hexValue_hexStr hlow,
      Option.elim_some, ih, List.foldl_cons]
    congr 1
    omega

theorem foldl_octets (n : Nat) (l : List UInt8) :
    l.foldl (fun n b => n * 256 + b.toNat) n = n * 256 ^ l.length + natOfOctets l := by
  induction l generalizing n with
  | nil => simp [natOfOctets]
  | cons b l ih =>
    rw [natOfOctets, List.foldl_cons, List.foldl_cons, ih, ih (0 * 256 + b.toNat), List.length_cons, Nat.pow_succ',
      Nat.zero_add, Nat.add_mul, Nat.mul_assoc, Nat.add_assoc]

theorem natOfOctets_cons (b : UInt8) (l : List UInt8) :
    natOfOctets (b :: l) = b.toNat * 256 ^ l.length + natOfOctets l := by
  rw [natOfOctets, List.foldl_cons, foldl_octets, Nat.zero_add]

theorem natOfOctets_lt (l : List UInt8) : natOfOctets l < 256 ^ l.length := by
  induction l with
  | nil => exact Nat.one_pos
  | cons b l ih =>
    rw [natOfOctets_cons, List.length_cons]
    have hb := Nat.mul_le_mul_right (256 ^ l.length) (Nat.succ_le_of_lt b.toNat_lt)
    rw [Nat.succ_mul] at hb
    omega

theorem natOfOctets_append (l l' : List UInt8) :
    natOfOctets (l ++ l') = natOfOctets l * 256 ^ l'.length + natOfOctets l' := by
  rw [natOfOctets, List.foldl_append, foldl_octets]
  rfl

theorem natOfOctets_copyBack (j : Nat) (tmp : UInt64) : natOfOctets (copyBack j tmp []) = tmp.toNat % 256 ^ j := by
  induction j generalizing tmp with
  | zero => exact (Nat.mod_one _).symm
  | succ j ih =>
    have hlow : natOfOctets [(tmp &&& 0xFF).toUInt8] = tmp.toNat % 256 := by
      rw [natOfOctets, List.foldl_cons, List.foldl_nil, UInt64.toNat_toUInt8, UInt64.toNat_and,
        show (0xFF : UInt64).toNat = 2 ^ 8 - 1 from rfl, Nat.and_two_pow_sub_one_eq_mod, Nat.mod_mod, Nat.zero_add]
    have hshift : (tmp >>> 8).toNat = tmp.toNat / 256 := by
      rw [UInt64.toNat_shiftRight, show (8 : UInt64).toNat % 64 = 8 from rfl, Nat.shiftRight_eq_div_pow]
    rw [copyBack, copyBack_append, natOfOctets_append, ih, hlow, hshift, Nat.pow_succ', Nat.mod_mul, List.length_singleton,
      Nat.pow_one, Nat.mul_comm, Nat.add_comm]

theorem natOfOctets_increaseSQN (sqn : Octets 6) :
    natOfOctets (increaseSQN sqn) = (natOfOctets sqn + 32) % 2 ^ 48 := by
  have hlt := natOfOctets_lt sqn
  rw [sqn.2] at hlt
  have hnumber : hexNumber 0 (binToStrhex sqn) = natOfOctets sqn := hexNumber_binToStrhex 0 sqn
  have htmp : (strtoll (binToStrhex sqn) + 0x20).toNat = natOfOctets sqn + 32 := by
    rw [UInt64.toNat_add, strtoll, UInt64.toNat_ofNat']
    simp only [UInt64.reduceToNat]
    omega
  exact (natOfOctets_copyBack 6 _).trans (congrArg (· % 256 ^ 6) htmp)

/-! ## The database -/

/-- The value of a column `binary(n)`: shorter values are padded, longer ones cut off. -/
def Octets.binary (n : Nat) (l : List UInt8) : Octets n := ⟨(l ++ List.replicate n 0).take n, by simp⟩

/-- The primary key of `subscriber_profile`. -/
structure SubscriberId where
  mcc : UInt16
  mnc : UInt8
  msin : UInt64
  deriving DecidableEq, Repr

def SubscriberId.ofIMSI (imsi : UInt64) : SubscriberId where
  mcc := (imsi / 1000000000000).toUInt16
  mnc := ((imsi / 10000000000) % 100).toUInt8
  msin := imsi % 10000000000

/-- The columns of `subscriber_profile` that the functions below read. -/
structure SubscriberProfile where
  k : List UInt8
  opc : Option (Octets 16)
  sqn : Option (Octets 6)

structure Operator where
  op : List UInt8
  amf : List UInt8

/-- A call of `milenage_generate`: the sequence number, and SQN_MS if the call is part of a resynchronisation. -/
structure Generated where
  subscriber : SubscriberId
  sqnMs : Option (Octets 6)
  sqn : Octets 6

/-- The tables, and the vectors that were generated, oldest first. -/
structure HSS where
  profiles : SubscriberId → Option SubscriberProfile
  operators : UInt16 → UInt8 → Option Operator
  generated : List Generated

/-- `milenage.c`. -/
structure Milenage where
  getOPC : List UInt8 → List UInt8 → Octets 16
  /-- `milenage_generate`: AUTN, IK, CK and RES, given OPc, AMF, K, SQN and RAND. -/
  generate : List UInt8 → List UInt8 → List UInt8 → List UInt8 → List UInt8 →
    List UInt8 × List UInt8 × List UInt8 × List UInt8
  /-- `milenage_auts`: SQN_MS if the token is valid, given OPc, K, RAND and AUTS. -/
  auts : List UInt8 → List UInt8 → List UInt8 → List UInt8 → Option (Octets 6)

namespace HSS

variable (P : Prims) (M : Milenage) (db : HSS)

/-- The query `authparams`.  The keys are primary, so there is at most one row. -/
def authparams (id : SubscriberId) : Option (SubscriberProfile × Operator) := do
  let p ← db.profiles id
  let o ← db.operators id.mcc id.mnc
  pure (p, o)

/-- `memcpy` from a column, which may be NULL. -/
def column {n : Nat} : Option (Octets n) → Outcome (Octets n)
  | none => .error .nullDeref
  | some l => .ok l

/-- `generate_Kasme`. -/
def generateKasme (ck ik sn sqnAk : List UInt8) : List UInt8 :=
  P.hmacSha256 (ck ++ ik) (0x10 :: sn ++ [0x00, 0x03] ++ sqnAk.take 6 ++ [0x00, 0x06])

/-- The queries `insertAuthVector`; the table `auth_vec` is not read again. -/
def insertAuthVector (id : SubscriberId) (sqnMs : Option (Octets 6)) (sqn : Octets 6) (opc : List UInt8) : HSS where
  profiles := Function.update db.profiles id ((db.profiles id).map fun p =>
    { p with
      sqn := some (.binary 6 (unhex (binToStrhex sqn)))
      opc := some (.binary 16 (unhex (binToStrhex opc))) })
  operators := db.operators
  generated := db.generated ++ [⟨id, sqnMs, sqn⟩]

/-- The part that `HSS_newAuthVec` and `HSS_syncAuthVec` have in common: the vector with this sequence number, and the
database with it. -/
def newVector (id : SubscriberId) (p : SubscriberProfile) (o : Operator) (sqnMs : Option (Octets 6)) (sqn : Octets 6)
    (sn rAND : List UInt8) : AuthQuadruplet × HSS :=
  let opc := p.opc.getD (M.getOPC o.op p.k)
  let (aUTN, ik, ck, xRES) := M.generate opc o.amf p.k sqn rAND
  (⟨rAND, xRES, aUTN, generateKasme P ck ik sn aUTN⟩, db.insertAuthVector id sqnMs sqn opc)

/-- `HSS_newAuthVec`. -/
def newAuthVec (imsi : UInt64) (sn rAND : List UInt8) : Outcome (HssAuth × HSS) :=
  let id := SubscriberId.ofIMSI imsi
  match db.authparams id with
  | none => .ok (.noRows, db)
  | some (p, o) => do
    let sqn ← column p.sqn
    let (q, db) := db.newVector P M id p o none (increaseSQN sqn) sn rAND
    pure (.vector q, db)

/-- `HSS_syncAuthVec`; `first` is the first quadruplet of the context. -/
def syncAuthVec (imsi : UInt64) (sn rAND : List UInt8) (first : AuthQuadruplet) (auts : List UInt8) :
    Outcome (HssSync × HSS) :=
  let id := SubscriberId.ofIMSI imsi
  match db.authparams id with
  | none => .ok (.wrongRows, db)
  | some (p, o) => do
    let sqnB ← column p.sqn
    match M.auts (p.opc.getD (M.getOPC o.op p.k)) p.k first.rAND auts with
    | none => pure (.invalidAuts, db)
    | some sqn =>
      if sqn = sqnB then pure (.alreadySynchronized, db)
      else
        let (q, db) := db.newVector P M id p o (some sqn) (increaseSQN sqn) sn rAND
        pure (.vector q, db)

end HSS

inductive HssCall
  | newAuthVec (imsi : UInt64) (sn rAND : List UInt8)
  | syncAuthVec (imsi : UInt64) (sn rAND : List UInt8) (first : AuthQuadruplet) (auts : List UInt8)

namespace HSS

def step (P : Prims) (M : Milenage) (db : HSS) : HssCall → Outcome HSS
  | .newAuthVec imsi sn rAND => (db.newAuthVec P M imsi sn rAND).map Prod.snd
  | .syncAuthVec imsi sn rAND first auts => (db.syncAuthVec P M imsi sn rAND first auts).map Prod.snd

/-- The stored sequence number. -/
def storedSQN (db : HSS) (id : SubscriberId) : Option (Octets 6) := db.profiles id >>= (·.sqn)

def generatedFor (db : HSS) (id : SubscriberId) : List Generated := db.generated.filter (·.subscriber = id)

/-! ## Runs -/

variable {P : Prims} {M : Milenage} {db db' : HSS} {id : SubscriberId}

/-- The sequence numbers of vectors of one subscriber, from the stored number `b` to the stored number `s`. -/
def Sequence : Nat → List Generated → Nat → Prop
  | b, [], s => s = b
  | b, v :: l, s => natOfOctets v.sqn = ((v.sqnMs.map (natOfOctets ·.1)).getD b + 32) % 2 ^ 48 ∧
      Sequence (natOfOctets v.sqn) l s

theorem sequence_append {b s : Nat} {l l' : List Generated} :
    Sequence b (l ++ l') s ↔ ∃ m, Sequence b l m ∧ Sequence m l' s := by
  induction l generalizing b with
  | nil => simp [Sequence]
  | cons v l ih =>
    rw [List.cons_append, Sequence, ih]
    simp [Sequence, and_assoc]

/-- Without a resynchronisation, the numbers go up in steps of 32. -/
theorem Sequence.plain {b s : Nat} {l post : List Generated} {v : Generated} (h : Sequence b (l ++ v :: post) s)
    (hplain : ∀ w ∈ l ++ [v], w.sqnMs = none) : natOfOctets v.sqn = (b + 32 * (l.length + 1)) % 2 ^ 48 := by
  induction l generalizing b with
  | nil =>
    have hv := h.1
    rw [hplain v (List.mem_singleton_self v)] at hv
    exact hv
  | cons w l ih =>
    have hw := h.1
    rw [hplain w List.mem_cons_self] at hw
    rw [ih h.2 fun x hx => hplain x (List.mem_cons_of_mem _ hx), hw, List.length_cons]
    simp only [Option.map_none, Option.getD_none]
    omega

/-- The stored number of a subscriber goes from `b` to `s` by the vectors that were generated. -/
def Advances (id : SubscriberId) (b : Octets 6) (db db' : HSS) (s : Octets 6) : Prop :=
  db'.storedSQN id = some s ∧
    ∃ log, db'.generatedFor id = db.generatedFor id ++ log ∧ Sequence (natOfOctets b) log (natOfOctets s)

theorem Advances.refl {b : Octets 6} (h : db.storedSQN id = some b) : Advances id b db db b :=
  ⟨h, [], (List.append_nil _).symm, rfl⟩

theorem Advances.trans {b s s' : Octets 6} {db'' : HSS} (h : Advances id b db db' s) (h' : Advances id s db' db'' s') :
    Advances id b db db'' s' := by
  obtain ⟨-, log, hlog, hseq⟩ := h
  obtain ⟨hstored, log', hlog', hseq'⟩ := h'
  refine ⟨hstored, log ++ log', ?_, sequence_append.mpr ⟨_, hseq, hseq'⟩⟩
  rw [hlog', hlog, List.append_assoc]

theorem binary_eq {n : Nat} (l : Octets n) : Octets.binary n l = l :=
  Subtype.ext ((List.take_append_of_le_length (Nat.le_of_eq l.2.symm)).trans (List.take_of_length_le (Nat.le_of_eq l.2)))

theorem binary_unhex {n : Nat} (l : Octets n) : Octets.binary n (unhex (binToStrhex l)) = l := by
  rw [unhex_binToStrhex, binary_eq]

theorem advances_insertAuthVector {b : Octets 6} (h : db.storedSQN id = some b) {id' : SubscriberId}
    {sqnMs : Option (Octets 6)} {sqn : Octets 6} {opc : List UInt8}
    (hsqn : id' = id → natOfOctets sqn = ((sqnMs.map (natOfOctets ·.1)).getD (natOfOctets b) + 32) % 2 ^ 48) :
    ∃ s, Advances id b db (db.insertAuthVector id' sqnMs sqn opc) s := by
  obtain ⟨p, hp, -⟩ := Option.bind_eq_some_iff.mp h
  by_cases hid : id' = id
  · subst hid
    refine ⟨sqn, ?_, [⟨id', sqnMs, sqn⟩], ?_, hsqn rfl, rfl⟩
    · simp [storedSQN, insertAuthVector, hp, binary_unhex]
    · simp [generatedFor, insertAuthVector]
  · refine ⟨b, ?_, [], ?_, rfl⟩
    · have hprofile : (db.insertAuthVector id' sqnMs sqn opc).profiles id = db.profiles id :=
        Function.update_of_ne (Ne.symm hid) _ _
      rw [storedSQN, hprofile]
      exact h
    · simp [generatedFor, insertAuthVector, hid]

theorem storedSQN_of_authparams {id' : SubscriberId} {p : SubscriberProfile} {o : Operator} {sqn b : Octets 6}
    (h : db.storedSQN id = some b) (hrow : db.authparams id' = some (p, o)) (hsqn : p.sqn = some sqn) :
    id' = id → b = sqn := by
  rintro rfl
  obtain ⟨p', hp', hrow⟩ := Option.bind_eq_some_iff.mp hrow
  obtain ⟨o', -, hrow⟩ := Option.bind_eq_some_iff.mp hrow
  cases hrow
  rw [storedSQN, hp', Option.bind_eq_bind, Option.bind_some, hsqn] at h
  exact (Option.some.inj h).symm

/-- A call leaves the tables as they are, or stores a vector with the next number: the one after the stored number, or
after SQN_MS. -/
theorem step_eq_ok {call : HssCall} (h : db.step P M call = .ok db') :
    db' = db ∨ ∃ id p o b sqnMs, db.authparams id = some (p, o) ∧ p.sqn = some b ∧
      db' = db.insertAuthVector id sqnMs (increaseSQN (sqnMs.getD b)) (p.opc.getD (M.getOPC o.op p.k)) := by
  cases call with
  | newAuthVec imsi sn rAND =>
    rw [step, newAuthVec] at h
    cases hrow : db.authparams (SubscriberId.ofIMSI imsi) with
    | none =>
      rw [hrow] at h
      exact .inl (Except.ok.inj h).symm
    | some row =>
      obtain ⟨p, o⟩ := row
      cases hsqn : p.sqn with
      | none => simp [hrow, hsqn, column, Except.map] at h
      | some b =>
        simp only [hrow, hsqn] at h
        exact .inr ⟨_, p, o, b, none, hrow, hsqn, (Except.ok.inj h).symm⟩
  | syncAuthVec imsi sn rAND first auts =>
    rw [step, syncAuthVec] at h
    cases hrow : db.authparams (SubscriberId.ofIMSI imsi) with
    | none =>
      rw [hrow] at h
      exact .inl (Except.ok.inj h).symm
    | some row =>
      obtain ⟨p, o⟩ := row
      cases hsqn : p.sqn with
      | none => simp [hrow, hsqn, column, Except.map] at h
      | some b =>
        simp only [hrow, hsqn, column, ok_bind] at h
        cases hauts : M.auts (p.opc.getD (M.getOPC o.op p.k)) p.k first.rAND auts with
        | none =>
          rw [hauts] at h
          exact .inl (Except.ok.inj h).symm
        | some sqn =>
          rw [hauts] at h
          by_cases heq : sqn = b
          · simp only [heq] at h
            exact .inl (Except.ok.inj h).symm
          · simp only [heq] at h
            exact .inr ⟨_, p, o, b, some sqn, hrow, hsqn, (Except.ok.inj h).symm⟩

/-- One call. -/
theorem advances_step {b : Octets 6} {call : HssCall} (h : db.storedSQN id = some b)
    (hstep : db.step P M call = .ok db') : ∃ s, Advances id b db db' s := by
  obtain rfl | ⟨id', p, o, b', sqnMs, hrow, hsqn, rfl⟩ := step_eq_ok hstep
  · exact ⟨b, .refl h⟩
  · refine advances_insertAuthVector h fun hid => ?_
    rw [natOfOctets_increaseSQN, storedSQN_of_authparams h hrow hsqn hid]
    cases sqnMs <;> rfl

theorem advances_run {b : Octets 6} {calls : List HssCall} (h : db.storedSQN id = some b)
    (hrun : Run (HSS.step P M) (fun _ _ => True) db calls db') : ∃ s, Advances id b db db' s := by
  induction hrun with
  | nil => exact ⟨b, .refl h⟩
  | snoc _ _ hstep ih =>
    obtain ⟨s, hs⟩ := ih
    obtain ⟨s', hs'⟩ := advances_step hs.1 hstep
    exact ⟨s', hs.trans hs'⟩

/-- In every run, the sequence numbers of a subscriber follow from each other and end in the stored one, and without a
resynchronisation they keep their last five bits and grow, up to the wrap. -/
theorem sequence_numbers {b : Octets 6} {calls : List HssCall} (h : db.storedSQN id = some b)
    (hrun : Run (HSS.step P M) (fun _ _ => True) db calls db') :
    ∃ s log, db'.storedSQN id = some s ∧ db'.generatedFor id = db.generatedFor id ++ log ∧
      Sequence (natOfOctets b) log (natOfOctets s) ∧
      ∀ pre u seg v post, log = pre ++ u :: (seg ++ v :: post) → (∀ w ∈ seg ++ [v], w.sqnMs = none) →
        natOfOctets v.sqn % 32 = natOfOctets u.sqn % 32 ∧
          (natOfOctets u.sqn + 32 * (seg.length + 1) < 2 ^ 48 → natOfOctets u.sqn < natOfOctets v.sqn) := by
  obtain ⟨s, hstored, log, hlog, hseq⟩ := advances_run h hrun
  refine ⟨s, log, hstored, hlog, hseq, ?_⟩
  rintro pre u seg v post rfl hplain
  obtain ⟨m, -, -, hrest⟩ := sequence_append.mp hseq
  have hv := hrest.plain hplain
  omega

/-- One subscriber, whose number is about to wrap, and an algorithm that copies the number into the vector. -/
def Sample.milenage : Milenage where
  getOPC op _ := .binary 16 op
  generate _ _ _ sqn _ := (sqn, [], [], [])
  auts _ _ _ auts := some (.binary 6 auts)

def Sample.tables : HSS where
  profiles id := if id = ⟨208, 93, 1⟩ then some ⟨[], none, some ⟨[0xff, 0xff, 0xff, 0xff, 0xff, 0xc1], rfl⟩⟩ else none
  operators _ _ := some ⟨[], []⟩
  generated := []

def Sample.calls : List HssCall :=
  [.newAuthVec 208930000000001 [] [], .newAuthVec 208930000000001 [] [],
    .syncAuthVec 208930000000001 [] [] ⟨[], [], [], []⟩ [0, 0, 0, 0, 1, 2]]

/-- Two vectors, the second one after the wrap, and a resynchronisation. -/
theorem sequence_numbers_wrap :
    ∃ db' s log, Run (HSS.step NAS.Prims.zeroKasme Sample.milenage) (fun _ _ => True) Sample.tables Sample.calls db' ∧
      db'.storedSQN ⟨208, 93, 1⟩ = some s ∧ Sequence 0xffffffffffc1 log (natOfOctets s) ∧
      log.map (fun v => natOfOctets v.sqn) = [0xffffffffffe1, 1, 0x122] := by
  simp only [exists_and_left]
  refine Run.exists_of_exec (fun db => (db.generatedFor ⟨208, 93, 1⟩).map (fun v => natOfOctets v.sqn) =
    [0xffffffffffe1, 1, 0x122]) (by decide +kernel) fun db' hrun hgen => ?_
  have hstored : Sample.tables.storedSQN ⟨208, 93, 1⟩ = some ⟨[0xff, 0xff, 0xff, 0xff, 0xff, 0xc1], rfl⟩ := rfl
  obtain ⟨s, log, hs, hlog, hseq, -⟩ := sequence_numbers hstored hrun
  rw [hlog] at hgen
  exact ⟨s, hs, log, hseq, hgen⟩

end HSS

end AaltoMME
