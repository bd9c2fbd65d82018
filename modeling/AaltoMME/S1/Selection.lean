import AaltoMME.S1.ECMSession
import AaltoMME.MME.Connections

/-!
# Which context a new connection is bound to

An initialUEMessage should be bound to the context that it names: by its S-TMSI, by a GUTI that this MME assigned, or
by an IMSI, and to a new context if it names none.  `ecm_processMsg` takes every GUTI for its own, since
`mme_GUMMEI_IsLocal` is always true, and looks for whatever the uninitialised `imsi` holds if
`emm_getIMSIfromAttach` does not write it.
-/

namespace AaltoMME

open Base NAS

/-! ## The identity in a message -/

namespace NAS.GenericNASMsg

variable (m : GenericNASMsg)

/-- The GUTI that an Attach Request or a Tracking Area Update Request gives; no context has the M-TMSI 0. -/
def givenGuti : Option Guti :=
  if (m.emmMessageType = attachRequest ∨ m.emmMessageType = trackingAreaUpdateRequest) ∧ mobileIdType (m.shift 6) = 6 ∧
    (Guti.ofMem m 7).mtmsi ≠ 0 then some (.ofMem m 7) else none

/-- The IMSI that an Attach Request gives. -/
def givenImsi : Option (Outcome UInt64) :=
  if m.emmMessageType = attachRequest ∧ mobileIdType (m.shift 6) = 1 then some (imsiOfMobileId (m.shift 6) (m 5)) else none

/-- The message is one of EMM, to which the fields above belong. -/
def IsEMM : Prop := m.protocolDiscriminator = epsMobilityManagementMessages

instance : Decidable m.IsEMM := inferInstanceAs (Decidable (_ = _))

end NAS.GenericNASMsg

/-- The message behind the security header, as far as it is not ciphered. -/
def readable (buf : Mem) (size : UInt64) : Option GenericNASMsg := (readableMsg buf size).toOption.join

namespace MME

variable (w : MME) (isLocal : Guti → Bool) (x : Env) (buf : Mem) (size : UInt64)

/-- The context that a readable message names; `isLocal` are the GUTIs of this MME. -/
def namedEMM (order : HashOrder) (m : GenericNASMsg) : Outcome (Option Nat) :=
  if m.IsEMM then
    match m.givenGuti, m.givenImsi with
    | some g, _ => if isLocal g then w.mmeLookupEMMCtxt g.mtmsi else .ok none
    | none, some (.ok imsi) => w.mmeLookupEMMCtxtByIMSI order imsi
    | none, _ => .ok none
  else .ok none

/-- The context that an initialUEMessage is to be bound to, or `none` for a new one. -/
def selectedEMM (order : HashOrder) (sTMSI : Option UInt32) : Outcome (Option Nat) :=
  match sTMSI with
  | some mtmsi => w.mmeLookupEMMCtxt mtmsi
  | none => (readable buf size).elim (.ok none) (w.namedEMM isLocal order)

/-- Whatever the uninitialised memory holds, the message is bound to this context. -/
def Selects (sTMSI : Option UInt32) : Prop :=
  ∀ junkImsi, w.findEMM { x with junkImsi } sTMSI buf size = w.selectedEMM isLocal buf size x.order sTMSI

/-- What `ecm_processMsg` finds for a readable message. -/
def foundEMM (m : GenericNASMsg) : Outcome (Option Nat) :=
  match m.givenGuti, m.givenImsi with
  | some g, _ => w.mmeLookupEMMCtxt g.mtmsi
  | none, some imsi => imsi >>= w.mmeLookupEMMCtxtByIMSI x.order
  | none, none => w.mmeLookupEMMCtxtByIMSI x.order x.junkImsi

/-- The identities with which the code finds the context that the message names. -/
def Names (m : GenericNASMsg) : Prop :=
  match m.givenGuti, m.givenImsi with
  | some g, _ => (m.IsEMM ∧ isLocal g = true) ∨ w.mmeLookupEMMCtxt g.mtmsi = .ok none
  | none, some imsi => ∃ n, imsi = .ok n ∧ (m.IsEMM ∨ w.mmeLookupEMMCtxtByIMSI x.order n = .ok none)
  | none, none => w.emmSessions = []

variable {w isLocal x buf size}

theorem lookupByIMSI_eq_none_iff {o : HashOrder} :
    (∀ imsi, w.mmeLookupEMMCtxtByIMSI o imsi = .ok none) ↔ w.emmSessions = [] := by
  constructor
  · intro h
    cases hl : o (w.emmSessions.map (·.value)) with
    | nil =>
      have hperm := o.perm (w.emmSessions.map (·.value))
      rw [hl] at hperm
      exact List.map_eq_nil_iff.mp hperm.symm.eq_nil
    | cons e l =>
      exfalso
      cases hc : w.emms e with
      | none =>
        have := h 0
        simp [mmeLookupEMMCtxtByIMSI, hl, deref, hc] at this
      | some c =>
        have := h c.imsi
        simp [mmeLookupEMMCtxtByIMSI, hl, deref, hc] at this
  · intro h imsi
    simp [mmeLookupEMMCtxtByIMSI, h]

theorem emmGetGUTIfromMsg_readable {m : GenericNASMsg} (h : readableMsg buf size = .ok (some m)) :
    ∃ g, emmGetGUTIfromMsg buf size = .ok g ∧ m.givenGuti = if g.mtmsi ≠ 0 then some g else none := by
  rw [emmGetGUTIfromMsg, h]
  by_cases hm : (m.emmMessageType = attachRequest ∨ m.emmMessageType = trackingAreaUpdateRequest) ∧
      mobileIdType (m.shift 6) = 6
  · refine ⟨.ofMem m 7, if_pos (by simpa using hm), ?_⟩
    exact if_congr (by rw [← and_assoc, and_iff_right hm]) rfl rfl
  · refine ⟨.zero, if_neg (by simpa using hm), ?_⟩
    rw [GenericNASMsg.givenGuti, if_neg fun hg => hm ⟨hg.1, hg.2.1⟩]
    rfl

theorem emmGetIMSIfromAttach_readable {m : GenericNASMsg} (h : readableMsg buf size = .ok (some m)) (junk : UInt64) :
    emmGetIMSIfromAttach junk buf size = m.givenImsi.getD (.ok junk) := by
  rw [emmGetIMSIfromAttach, h, ok_bind]
  dsimp only
  by_cases hm : m.emmMessageType = attachRequest ∧ mobileIdType (m.shift 6) = 1
  · rw [GenericNASMsg.givenImsi, if_pos hm, if_pos (by simpa using hm), Option.getD_some]
  · rw [GenericNASMsg.givenImsi, if_neg hm, if_neg (by simpa using hm)]
    rfl

theorem findEMM_readable {m : GenericNASMsg} (h : readableMsg buf size = .ok (some m)) :
    w.findEMM x none buf size = w.foundEMM x m := by
  obtain ⟨g, hg, hgiven⟩ := emmGetGUTIfromMsg_readable h
  simp only [findEMM, hg, ok_bind, foundEMM, hgiven, emmGetIMSIfromAttach_readable h]
  split
  · rfl
  · cases m.givenImsi with
    | some imsi => rfl
    | none => rfl

theorem readableMsg_eq_ok_iff : (∃ o, readableMsg buf size = .ok o) ↔ 1 ≤ size.toUInt32 := by
  unfold readableMsg nasGetHeader
  by_cases hsize : size.toUInt32 < 1
  · simp [hsize]
  · rw [if_neg hsize]
    refine ⟨fun _ => UInt32.not_lt.mp hsize, fun _ => ?_⟩
    dsimp only
    split
    · exact ⟨_, rfl⟩
    · split
      · exact ⟨_, rfl⟩
      · exact ⟨_, rfl⟩

theorem found_eq_named_iff {m : GenericNASMsg} :
    (∀ junkImsi, w.foundEMM { x with junkImsi } m = w.namedEMM isLocal x.order m) ↔ w.Names isLocal x m := by
  unfold foundEMM namedEMM Names
  cases hg : m.givenGuti with
  | some g =>
    by_cases hemm : m.IsEMM
    · by_cases hl : isLocal g = true
      · simp [hemm, hl]
      · simp [hl]
    · simp [hemm]
  | none =>
    cases hi : m.givenImsi with
    | some imsi =>
      cases imsi with
      | error e => simp
      | ok n =>
        by_cases hemm : m.IsEMM
        · simp [hemm]
        · simp [hemm]
    | none =>
      rw [ite_self]
      exact lookupByIMSI_eq_none_iff

/-- An Attach Request with the M-TMSI of the sample UE in a GUTI of another network. -/
def Sample.foreignAttach : List UInt8 :=
  [0x07, 0x41, 0x71, 0x0b, 0xf6, 0x99, 0xf9, 0x99, 0, 7, 7, 0x01, 0xd4, 0x6e, 0x4e, 2, 0xe0, 0xe0, 0, 0]

/-- Whether the message is bound to the context that it names, whatever the uninitialised memory holds. -/
theorem selects_iff (w : MME) (isLocal : Guti → Bool) (x : Env) (sTMSI : Option UInt32) (buf : Mem) (size : UInt64) :
    w.Selects isLocal x buf size sTMSI ↔ sTMSI.isSome ∨
      1 ≤ size.toUInt32 ∧ (readable buf size).elim (w.emmSessions = []) (w.Names isLocal x) := by
  cases sTMSI with
  | some mtmsi => exact ⟨fun _ => .inl rfl, fun _ _ => rfl⟩
  | none =>
    rw [← readableMsg_eq_ok_iff]
    simp only [Option.isSome_none, Bool.false_eq_true, false_or, Selects, selectedEMM, readable]
    cases hr : readableMsg buf size with
    | error e =>
      have herror : ∀ junkImsi, w.findEMM { x with junkImsi } none buf size = .error e := fun junk => by
        simp only [findEMM, emmGetGUTIfromMsg, hr]
        rfl
      simp [herror, Except.toOption]
    | ok o =>
      refine Iff.trans ?_ (and_iff_right ⟨o, rfl⟩).symm
      cases o with
      | none =>
        have hjunk : ∀ junkImsi, w.findEMM { x with junkImsi } none buf size =
            w.mmeLookupEMMCtxtByIMSI x.order junkImsi := fun junk => by
          simp only [findEMM, emmGetGUTIfromMsg, emmGetIMSIfromAttach, hr]
          rfl
        simp only [hjunk]
        exact lookupByIMSI_eq_none_iff
      | some m =>
        simp only [findEMM_readable hr]
        exact found_eq_named_iff

/-- After the UE attached, a ciphered message is bound to its context if the memory happens to hold the IMSI, and the GUTI
of another MME is taken for its own if the M-TMSI is the same. -/
theorem not_selects :
    ∃ w, Run (step Prims.zeroKasme) (fun _ _ => True) (init 0) Sample.attach w ∧
      (∀ isLocal, ¬ w.Selects isLocal (Sample.env .manyRows) (.ofList [0x27, 0, 0, 0, 0, 1, 0x07, 0x48]) 8 none) ∧
      ¬ w.Selects (fun _ => false) (Sample.env .manyRows) (.ofList Sample.foreignAttach) 20 none := by
  refine Run.exists_of_exec (fun w => (w.findEMM { Sample.env .manyRows with junkImsi := 208930000000001 } none
        (.ofList [0x27, 0, 0, 0, 0, 1, 0x07, 0x48]) 8).toOption = some (some 2) ∧
      (w.findEMM (Sample.env .manyRows) none (.ofList Sample.foreignAttach) 20).toOption = some (some 2) ∧
      (w.selectedEMM (fun _ => false) (.ofList Sample.foreignAttach) 20 (Sample.env .manyRows).order none).toOption =
        some none) (by decide +kernel) ?_
  rintro w - ⟨hciphered, hforeign, hnew⟩
  refine ⟨fun isLocal h => ?_, fun h => ?_⟩
  · rw [h 208930000000001] at hciphered
    cases hciphered
  · have hbound := h (Sample.env .manyRows).junkImsi
    rw [hbound] at hforeign
    cases hforeign

end MME

end AaltoMME
