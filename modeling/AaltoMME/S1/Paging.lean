import AaltoMME.S1.Setup

/-!
# Paging

`mme_paging` walks through the table of the associations by global identifier and pages the UE through every
eNodeB that broadcasts its serving network in its tracking area.  The comparison of `s1Assoc_containsTA` is octet
by octet: the code of the tracking area and the PLMN have to be those of one item.  The order of the walk is that
of the hash table.
-/

namespace AaltoMME

open Base

/-! ## The message -/

/-- `UEPagingID_t`. -/
inductive UEPagingID
  | sTMSI (mMEC : UInt8) (mTMSI : List UInt8)
  | iMSI (digits : List UInt8)
  deriving DecidableEq, Repr

/-- `CNDomain_e`. -/
inductive CNDomain
  | ps
  | cs
  deriving DecidableEq, Repr

/-- `TAI_t`. -/
structure TAI where
  pLMNidentity : List UInt8
  tAC : List UInt8
  deriving DecidableEq, Repr

/-- The information elements of a Paging; the identity index is a field of ten bits. -/
structure PagingMsg where
  ueIdentityIndexValue : BitVec 10
  uePagingID : UEPagingID
  cNDomain : CNDomain
  tAIList : List TAI
  deriving DecidableEq, Repr

/-- A message that is sent, with the association and its stream. -/
structure PagingSent where
  assoc : Nat
  stream : Nat
  msg : PagingMsg
  deriving DecidableEq, Repr

def PLMN.octets (p : PLMN) : List UInt8 := [p.tbcd.1, p.tbcd.2.1, p.tbcd.2.2]

/-- `s1Assoc_containsTA`: the first item with both ends the search. -/
def s1AssocContainsTA (sn tac : List UInt8) : SupportedTAs → Bool
  | [] => false
  | item :: tas =>
    if item.tAC ≠ tac then s1AssocContainsTA sn tac tas
    else if item.broadcastPLMNs.any (fun plmneNB => plmneNB.octets = sn) then true
    else s1AssocContainsTA sn tac tas

/-- The message of `sendPaging`. -/
def pagingMsg (c : EMMCtx) : PagingMsg where
  ueIdentityIndexValue := .ofNat 10 (c.imsi % 1024).toNat
  uePagingID := .sTMSI c.guti.mmec (hostOctets c.guti.mtmsi)
  cNDomain := .ps
  tAIList := [⟨c.sn, c.tac⟩]

namespace ENBRegistry

variable (w : ENBRegistry)

/-- `sendPaging`, on the stream of the S1 Setup. -/
def sendPaging (c : EMMCtx) (a : Nat) (s : ENBAssoc) : PagingSent := ⟨a, s.nonueRsid, pagingMsg c⟩

/-- `s1Assoc_paging`. -/
def s1AssocPaging (c : EMMCtx) (a : Nat) : Outcome (List PagingSent) := do
  let s ← deref w.assocs (some a)
  match s.supportedTAs with
  | none => .error .nullDeref
  | some tas => if s1AssocContainsTA c.sn c.tac tas then .ok [sendPaging c a s] else .ok []

/-- The loop of `mme_paging`. -/
def pagingLoop (c : EMMCtx) : List Nat → Outcome (List PagingSent)
  | [] => .ok []
  | a :: l => do
    let sent ← w.s1AssocPaging c a
    let rest ← pagingLoop c l
    pure (sent ++ rest)

/-- `mme_paging`. -/
def mmePaging (order : HashOrder) (c : EMMCtx) : Outcome (List PagingSent) :=
  w.pagingLoop c (order (w.s1ByGeNBid.map PtrEntry.value))

/-! ## What is broadcast -/

/-- The eNodeB of the association broadcasts the serving network of the UE in the tracking area of the UE. -/
def Broadcasts (c : EMMCtx) (a : Nat) : Prop :=
  ∃ s tas, w.assocs a = some s ∧ s.supportedTAs = some tas ∧
    ∃ item ∈ tas, item.tAC = c.tac ∧ ∃ plmn ∈ item.broadcastPLMNs, plmn.octets = c.sn

theorem s1AssocContainsTA_iff {sn tac : List UInt8} {tas : SupportedTAs} :
    s1AssocContainsTA sn tac tas = true ↔
      ∃ item ∈ tas, item.tAC = tac ∧ ∃ plmn ∈ item.broadcastPLMNs, plmn.octets = sn := by
  induction tas with
  | nil => simp [s1AssocContainsTA]
  | cons item tas ih =>
    rw [List.exists_mem_cons_iff, s1AssocContainsTA]
    by_cases htac : item.tAC = tac
    · have hany : item.broadcastPLMNs.any (fun plmneNB => plmneNB.octets = sn) = true ↔
          ∃ plmn ∈ item.broadcastPLMNs, plmn.octets = sn := by
        simp
      rw [← hany, ← ih]
      by_cases hsn : item.broadcastPLMNs.any (fun plmneNB => plmneNB.octets = sn) = true
      · simp [htac]
      · simp [hsn]
    · rw [if_pos htac, ih]
      simp [htac]

variable {w} {c : EMMCtx} {a : Nat}

/-- An association whose tracking areas are known is paged once if it broadcasts what the UE looks for. -/
theorem s1AssocPaging_eq (h : ∃ s, w.assocs a = some s ∧ s.supportedTAs.isSome = true) :
    ∃ sent, w.s1AssocPaging c a = .ok sent ∧
      ((w.Broadcasts c a ∧ ∃ stream, sent = [⟨a, stream, pagingMsg c⟩]) ∨ (¬ w.Broadcasts c a ∧ sent = [])) := by
  obtain ⟨s, hs, hsome⟩ := h
  obtain ⟨tas, htas⟩ := Option.isSome_iff_exists.mp hsome
  have hiff : w.Broadcasts c a ↔ s1AssocContainsTA c.sn c.tac tas = true := by
    rw [s1AssocContainsTA_iff]
    constructor
    · rintro ⟨s', tas', hs', htas', hitem⟩
      cases hs.symm.trans hs'
      cases htas.symm.trans htas'
      exact hitem
    · exact fun hitem => ⟨s, tas, hs, htas, hitem⟩
  rw [hiff, s1AssocPaging, deref_eq_ok.mpr ⟨a, rfl, hs⟩, ok_bind]
  simp only [htas]
  by_cases hta : s1AssocContainsTA c.sn c.tac tas = true
  · exact ⟨_, if_pos hta, .inl ⟨hta, s.nonueRsid, rfl⟩⟩
  · exact ⟨_, if_neg hta, .inr ⟨hta, rfl⟩⟩

/-- The loop pages the associations of the list in turn. -/
theorem pagingLoop_eq {l : List Nat} (h : ∀ a ∈ l, ∃ s, w.assocs a = some s ∧ s.supportedTAs.isSome = true) :
    ∃ sent, w.pagingLoop c l = .ok sent ∧ (∀ p ∈ sent, p.msg = pagingMsg c) ∧
      ∀ a, (w.Broadcasts c a → (sent.map PagingSent.assoc).count a = l.count a) ∧
        (¬ w.Broadcasts c a → (sent.map PagingSent.assoc).count a = 0) := by
  induction l with
  | nil => exact ⟨[], rfl, by simp, by simp⟩
  | cons b l ih =>
    obtain ⟨hb, hl⟩ := List.forall_mem_cons.mp h
    obtain ⟨rest, hrest, hmsg, hcount⟩ := ih hl
    obtain ⟨sent, hsent, hcases⟩ := s1AssocPaging_eq hb
    refine ⟨sent ++ rest, by rw [pagingLoop, hsent, hrest]; rfl, ?_, fun a => ?_⟩
    · rintro p hp
      rcases List.mem_append.mp hp with hp | hp
      · rcases hcases with ⟨-, stream, rfl⟩ | ⟨-, rfl⟩
        · rw [List.mem_singleton.mp hp]
        · cases hp
      · exact hmsg p hp
    · rw [List.map_append, List.count_append, List.count_cons]
      rcases hcases with ⟨hcast, stream, rfl⟩ | ⟨hcast, rfl⟩
      · rw [List.map_singleton, List.count_singleton]
        refine ⟨fun ha => ?_, fun ha => ?_⟩
        · rw [(hcount a).1 ha, Nat.add_comm]
        · have hba : b ≠ a := by
            rintro rfl
            exact ha hcast
          simp [(hcount a).2 ha, hba]
      · refine ⟨fun ha => ?_, fun ha => ?_⟩
        · have hba : b ≠ a := by
            rintro rfl
            exact hcast ha
          simp [(hcount a).1 ha, hba]
        · simp [(hcount a).2 ha]

/-- No association is under two keys. -/
theorem Registered.nodup_values (hw : w.Registered) : (w.s1ByGeNBid.map PtrEntry.value).Nodup := by
  refine List.pairwise_map.mpr (hw.sound.distinct.imp_of_mem fun {e f} he hf hne heq => hne ?_)
  obtain ⟨s, hs, -, -, hid⟩ := hw.under e he
  obtain ⟨s', hs', -, -, hid'⟩ := hw.under f hf
  rw [heq] at hs
  cases hs.symm.trans hs'
  exact hid.trans hid'.symm

/-- **Paging.** In every state that is reached, for every EMM context and every order of the walk, each association
in the table that broadcasts the serving network of the UE in the tracking area of the UE, both in one item, gets
one Paging, and no other association gets one.  The message has the identity index, the MME code and the M-TMSI of
the GUTI, and the tracking area identity of the UE. -/
theorem mmePaging_exact {served : List (List PLMN)} {es : List ENBEvent} {w : ENBRegistry}
    (hrun : Run step (fun _ _ => True) (init served) es w) (order : HashOrder) (c : EMMCtx) :
    ∃ sent, w.mmePaging order c = .ok sent ∧
      (∀ e ∈ w.s1ByGeNBid, w.Broadcasts c e.value → (sent.map PagingSent.assoc).count e.value = 1) ∧
      (∀ p ∈ sent, (∃ e ∈ w.s1ByGeNBid, e.value = p.assoc) ∧ w.Broadcasts c p.assoc) ∧
      ∀ p ∈ sent, p.msg.uePagingID = .sTMSI c.guti.mmec (hostOctets c.guti.mtmsi) ∧
        p.msg.ueIdentityIndexValue.toNat = c.imsi.toNat % 1024 ∧ p.msg.tAIList = [⟨c.sn, c.tac⟩] := by
  have hw := registered_of_run hrun
  have hlive : ∀ a ∈ order (w.s1ByGeNBid.map PtrEntry.value),
      ∃ s, w.assocs a = some s ∧ s.supportedTAs.isSome = true := by
    intro a ha
    obtain ⟨e, he, rfl⟩ := List.mem_map.mp (order.mem_apply.mp ha)
    obtain ⟨s, hs, -, htas, -⟩ := hw.under e he
    exact ⟨s, hs, htas⟩
  obtain ⟨sent, hsent, hmsg, hcount⟩ := pagingLoop_eq hlive
  have hperm := order.perm (w.s1ByGeNBid.map PtrEntry.value)
  refine ⟨sent, hsent, fun e he hcast => ?_, fun p hp => ?_, fun p hp => ?_⟩
  · rw [(hcount e.value).1 hcast, hperm.count_eq]
    exact List.count_eq_one_of_mem hw.nodup_values (List.mem_map_of_mem he)
  · have hpos : 0 < (sent.map PagingSent.assoc).count p.assoc := List.count_pos_iff.mpr (List.mem_map_of_mem hp)
    have hcast : w.Broadcasts c p.assoc := by
      by_contra hcast
      exact Nat.ne_of_gt hpos ((hcount p.assoc).2 hcast)
    rw [(hcount p.assoc).1 hcast, List.count_pos_iff] at hpos
    obtain ⟨e, he, hvalue⟩ := List.mem_map.mp (order.mem_apply.mp hpos)
    exact ⟨⟨e, he, hvalue⟩, hcast⟩
  · rw [hmsg p hp]
    refine ⟨rfl, ?_, rfl⟩
    exact Nat.mod_mod ..

/-! Two eNodeBs broadcast the serving network of a UE, one of them in another tracking area. -/

def samplePaged : EMMCtx :=
  { emmInit 0 1 ⟨0, 1, [], [], 0, 0⟩ with
    imsi := 244010000001234
    guti := ⟨samplePLMN.octets, [0, 1], 7, 0x01020304⟩
    sn := samplePLMN.octets
    tac := [0, 1] }

def sampleENBs : List ENBEvent :=
  [.accept, .s1ap 0 (sampleSetup .initiatingMessage) 3, .accept,
    .s1ap 1 ⟨.s1Setup, .initiatingMessage, [.globalENBID ⟨samplePLMN, ⟨0, 2⟩⟩, .supportedTAs [⟨[1, 0], [samplePLMN]⟩]]⟩ 0]

/-- The first one alone gets a Paging. -/
theorem mmePaging_exact_two : ∃ w sent, Run step (fun _ _ => True) (init [[samplePLMN]]) sampleENBs w ∧
    w.s1ByGeNBid.map PtrEntry.value = [1, 0] ∧ w.mmePaging default samplePaged = .ok sent ∧
    sent.map PagingSent.assoc = [0] ∧ ∀ p ∈ sent, p.msg.ueIdentityIndexValue.toNat = 210 := by
  simp only [exists_and_left]
  refine Run.exists_of_exec (fun w => w.s1ByGeNBid.map PtrEntry.value = [1, 0] ∧
    (w.mmePaging default samplePaged).toOption.map (·.map PagingSent.assoc) = some [0]) (by decide +kernel) ?_
  rintro w hrun ⟨hvalues, hpaging⟩
  obtain ⟨sent, hsent, -, -, hmsg⟩ := mmePaging_exact hrun default samplePaged
  rw [hsent] at hpaging
  exact ⟨hvalues, sent, hsent, Option.some.inj hpaging, fun p hp => (hmsg p hp).2.1⟩

end ENBRegistry

end AaltoMME
