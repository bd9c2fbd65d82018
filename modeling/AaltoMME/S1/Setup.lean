import AaltoMME.S1.Assoc

/-!
# S1 Setup

What an association has besides its ECM sessions: the name, the global identifier and the tracking areas of
its eNodeB, and the table of the MME that has the associations by global identifier.  The key of an association
in the table is the identifier in its own record.  `processMsg` of S1_NotConfigured overwrites name and
identifier before it knows whether the message is an S1 Setup Request that the MME can answer, and it ignores
only the messages that are neither an S1 Setup nor an initiating message.
-/

namespace AaltoMME

open Base

/-! ## Identifiers -/

/-- `mme_PLMN`: three octets. -/
structure PLMN where
  tbcd : UInt8 × UInt8 × UInt8
  deriving DecidableEq, Repr

/-- `ENB_ID_t`: the choice and the union. -/
structure ENBID where
  choice : UInt8
  id : UInt32
  deriving DecidableEq, Repr

/-- `Global_ENB_ID_t`. -/
structure GlobalENBID where
  pLMNidentity : PLMN
  eNBid : ENBID
  deriving DecidableEq, Repr

/-- `mme_GlobaleNBid`; the identifier has 28 bits. -/
structure MMEGlobaleNBid where
  plmn : PLMN
  macroId : Bool
  eNBid : UInt32
  deriving DecidableEq, Repr

/-- `globaleNBID_Fill`. -/
def globaleNBIDFill (gid : GlobalENBID) : MMEGlobaleNBid :=
  if gid.eNBid.choice = 0 then ⟨gid.pLMNidentity, true, (gid.eNBid.id <<< 4) &&& 0x0FFFFFFF⟩
  else ⟨gid.pLMNidentity, false, (gid.eNBid.id <<< 12) &&& 0x0FFFFFFF⟩

/-- `plmn_Hash`. -/
def plmnHash (p : PLMN) : UInt32 :=
  (p.tbcd.2.2.toUInt32 * 10000) &&& (p.tbcd.2.1.toUInt32 * 100) &&& p.tbcd.1.toUInt32

/-- `globaleNBID_Hash`; GLib keeps the first two values for itself. -/
def globaleNBIDHash (k : MMEGlobaleNBid) : UInt32 := gIntHash (plmnHash k.plmn ^^^ k.eNBid)

/-! ## Messages -/

/-- `SupportedTAs_Item_t`. -/
structure SupportedTAsItem where
  tAC : List UInt8
  broadcastPLMNs : List PLMN
  deriving DecidableEq, Repr

/-- `SupportedTAs_t`. -/
abbrev SupportedTAs := List SupportedTAsItem

/-- The information elements that S1_NotConfigured looks for.  A name is given up to its first zero octet. -/
inductive S1SetupIE
  | eNBname (name : List UInt8)
  | globalENBID (gid : GlobalENBID)
  | supportedTAs (tas : SupportedTAs)
  | other (id : UInt16)
  deriving DecidableEq, Repr

/-- An S1AP message with its information elements. -/
structure S1SetupMsg where
  procedureCode : S1Procedure
  choice : S1Choice
  ies : List S1SetupIE
  deriving DecidableEq, Repr

namespace S1SetupIE

def eNBname? : S1SetupIE → Option (List UInt8)
  | .eNBname name => some name
  | _ => none

def globalENBID? : S1SetupIE → Option GlobalENBID
  | .globalENBID gid => some gid
  | _ => none

def supportedTAs? : S1SetupIE → Option SupportedTAs
  | .supportedTAs tas => some tas
  | _ => none

end S1SetupIE

namespace S1SetupMsg

variable (m : S1SetupMsg)

/-- What `processMsg` of S1_NotConfigured ignores. -/
def Ignored : Prop := m.procedureCode ≠ .s1Setup ∧ m.choice ≠ .initiatingMessage

instance : Decidable m.Ignored := inferInstanceAs (Decidable (_ ∧ _))

/-- `s1ap_findIe` for the name: the first one. -/
def eNBname : Option (List UInt8) := m.ies.findSome? S1SetupIE.eNBname?

/-- `s1ap_findIe` for the global identifier. -/
def globalENBID : Option GlobalENBID := m.ies.findSome? S1SetupIE.globalENBID?

/-- `s1ap_getIe` for the tracking areas: the last one. -/
def supportedTAs : Option SupportedTAs := m.ies.reverse.findSome? S1SetupIE.supportedTAs?

end S1SetupMsg

/-! ## Associations -/

/-- `S1Assoc_t`, without its ECM sessions. -/
structure ENBAssoc where
  active : Bool
  nonueRsid : Nat
  eNBname : List UInt8
  globalENBID : MMEGlobaleNBid
  supportedTAs : Option SupportedTAs

/-- `s1Assoc_init`. -/
def s1AssocInit : ENBAssoc := ⟨false, 0, [], ⟨⟨0, 0, 0⟩, false, 0⟩, none⟩

/-- The associations, the table by global identifier, and the PLMNs of the served GUMMEIs. -/
structure ENBRegistry where
  assocs : Nat → Option ENBAssoc
  s1ByGeNBid : PtrTable UInt32
  servedGUMMEIs : List (List PLMN)
  fresh : Nat

namespace ENBRegistry

variable (w : ENBRegistry)

def init (servedGUMMEIs : List (List PLMN)) : ENBRegistry := ⟨fun _ => none, [], servedGUMMEIs, 0⟩

def setAssoc (a : Nat) (s : ENBAssoc) : ENBRegistry := { w with assocs := Function.update w.assocs a (some s) }

/-- `s1Assoc_getID_p`, dereferenced. -/
def idKey (a : Nat) : Outcome MMEGlobaleNBid := do
  let s ← deref w.assocs (some a)
  pure s.globalENBID

/-- `mme_registerS1Assoc`. -/
def mmeRegisterS1Assoc (a : Nat) : Outcome ENBRegistry := do
  let k ← w.idKey a
  let (t, _) ← w.s1ByGeNBid.insert globaleNBIDHash w.idKey k a a
  pure { w with s1ByGeNBid := t }

/-- `mme_deregisterS1Assoc`. -/
def mmeDeregisterS1Assoc (a : Nat) : Outcome ENBRegistry := do
  let k ← w.idKey a
  let (t, _) ← w.s1ByGeNBid.remove globaleNBIDHash w.idKey k
  pure { w with s1ByGeNBid := t }

/-- `mme_containsSupportedTAs`: four loops that raise a flag. -/
def mmeContainsSupportedTAs (tas : SupportedTAs) : Bool :=
  tas.foldl (fun flag item => item.broadcastPLMNs.foldl (fun flag plmneNB => w.servedGUMMEIs.foldl (fun flag served =>
    served.foldl (fun flag plmnMME => if plmnMME = plmneNB then true else flag) flag) flag) flag) false

/-- The end of an association in `s1_accept`: it leaves the table and is freed. -/
def disconnect (a : Nat) : Outcome ENBRegistry := do
  let w ← w.mmeDeregisterS1Assoc a
  pure { w with assocs := Function.update w.assocs a none }

/-- `processMsg` of S1_NotConfigured, and whether it reports an error. -/
def notConfiguredProcessMsg (a : Nat) (s : ENBAssoc) (m : S1SetupMsg) (rSid : Nat) : Outcome (ENBRegistry × Bool) :=
  let s := { s with nonueRsid := rSid }
  if m.Ignored then .ok (w.setAssoc a s, false)
  else
    let s := { s with eNBname := m.eNBname.getD s.eNBname }
    match m.globalENBID with
    | none => .error .nullDeref
    | some gid =>
      let s := { s with globalENBID := globaleNBIDFill gid, supportedTAs := m.supportedTAs }
      let w := w.setAssoc a s
      match s.supportedTAs with
      | none => .ok (w, false)
      | some tas => do
        let w ← w.mmeRegisterS1Assoc a
        if w.mmeContainsSupportedTAs tas then pure (w.setAssoc a { s with active := true }, false)
        else pure (w, true)

end ENBRegistry

/-- What happens to the associations. -/
inductive ENBEvent
  | accept
  | s1ap (assoc : Nat) (msg : S1SetupMsg) (rSid : Nat)
  | closed (assoc : Nat)

namespace ENBRegistry

/-- One event.  The messages of an association that is active concern its ECM sessions. -/
def step (w : ENBRegistry) : ENBEvent → Outcome ENBRegistry
  | .accept => .ok { w.setAssoc w.fresh s1AssocInit with fresh := w.fresh + 1 }
  | .s1ap a m rSid => do
    let s ← deref w.assocs (some a)
    if s.active then .ok w
    else
      let (w, error) ← w.notConfiguredProcessMsg a s m rSid
      if error then w.disconnect a else pure w
  | .closed a => w.disconnect a

variable {w v : ENBRegistry} {a : Nat} {s : ENBAssoc} {m : S1SetupMsg} {rSid : Nat}

/-! ## The search for a served PLMN -/

theorem foldl_flag {α : Type} {f : Bool → α → Bool} {p : α → Bool} (hf : ∀ b x, f b x = (b || p x)) (l : List α)
    (b : Bool) : l.foldl f b = (b || l.any p) := by
  induction l generalizing b with
  | nil => simp
  | cons x l ih => rw [List.foldl_cons, ih, hf, List.any_cons, Bool.or_assoc]

theorem mmeContainsSupportedTAs_iff (tas : SupportedTAs) :
    w.mmeContainsSupportedTAs tas = true ↔
      ∃ item ∈ tas, ∃ plmn ∈ item.broadcastPLMNs, ∃ served ∈ w.servedGUMMEIs, plmn ∈ served := by
  have hserved : ∀ (plmn : PLMN) (b : Bool) (served : List PLMN),
      served.foldl (fun flag q => if q = plmn then true else flag) b = (b || served.any (· = plmn)) :=
    fun plmn b served => foldl_flag (fun b q => by by_cases hq : q = plmn <;> simp [hq]) served b
  have hgummeis : ∀ (b : Bool) (plmn : PLMN),
      w.servedGUMMEIs.foldl (fun flag served =>
        served.foldl (fun flag q => if q = plmn then true else flag) flag) b =
          (b || w.servedGUMMEIs.any fun served => served.any (· = plmn)) :=
    fun b plmn => foldl_flag (hserved plmn) _ b
  have htas := foldl_flag (fun b (item : SupportedTAsItem) => foldl_flag hgummeis item.broadcastPLMNs b) tas false
  unfold mmeContainsSupportedTAs
  rw [htas]
  simp

/-! ## The table by global identifier -/

theorem idKey_eq_ok {k : MMEGlobaleNBid} : w.idKey a = .ok k ↔ ∃ s, w.assocs a = some s ∧ s.globalENBID = k := by
  simp [idKey, bind_eq_ok]

theorem idKey_congr (h : v.assocs a = w.assocs a) : v.idKey a = w.idKey a := by
  simp only [idKey, deref, h]

theorem assocs_setAssoc_self : (w.setAssoc a s).assocs a = some s := Function.update_self ..

theorem assocs_setAssoc_of_ne {b : Nat} (h : b ≠ a) : (w.setAssoc a s).assocs b = w.assocs b :=
  Function.update_of_ne h ..

theorem idKey_setAssoc_congr {s' : ENBAssoc} (h : s'.globalENBID = s.globalENBID) (b : Nat) :
    (w.setAssoc a s').idKey b = (w.setAssoc a s).idKey b := by
  by_cases hba : b = a
  · rw [hba, idKey_eq_ok.mpr ⟨s, assocs_setAssoc_self, rfl⟩]
    exact idKey_eq_ok.mpr ⟨s', assocs_setAssoc_self, h⟩
  · exact idKey_congr ((assocs_setAssoc_of_ne hba).trans (assocs_setAssoc_of_ne hba).symm)

/-- The table has the association `a` under the identifier `k`. -/
def Lists (w : ENBRegistry) (k : MMEGlobaleNBid) (a : Nat) : Prop := PtrTable.Maps w.idKey w.s1ByGeNBid k a

/-- What was in the table under other identifiers is in it. -/
def Spares (w v : ENBRegistry) (k : MMEGlobaleNBid) : Prop := ∀ k' a, k' ≠ k → w.Lists k' a → v.Lists k' a

/-- The association is in S1_Active. -/
def Active (w : ENBRegistry) (a : Nat) : Prop := ∃ s, w.assocs a = some s ∧ s.active = true

theorem not_active (hs : w.assocs a = some s) (hn : s.active = false) : ¬ w.Active a := by
  rintro ⟨s', hs', hactive⟩
  cases hs.symm.trans hs'
  rw [hn] at hactive
  cases hactive

/-- The association `a` under the key `k` of the table: it is in S1_Active, its tracking areas are known, and its
identifier is what the key points to. -/
def Under (w : ENBRegistry) (k a : Nat) : Prop :=
  ∃ s, w.assocs a = some s ∧ s.active = true ∧ s.supportedTAs.isSome = true ∧ w.idKey k = .ok s.globalENBID

theorem Under.congr {k b : Nat} (hk : v.assocs k = w.assocs k) (hb : v.assocs b = w.assocs b) (h : w.Under k b) :
    v.Under k b := by
  obtain ⟨s, hs, hactive, htas, hid⟩ := h
  exact ⟨s, hb.trans hs, hactive, htas, (idKey_congr hk).trans hid⟩

/-- The keys of the table are the identifiers of associations in S1_Active, which no message changes. -/
structure Registered (w : ENBRegistry) : Prop where
  fresh : ∀ a, w.fresh ≤ a → w.assocs a = none
  sound : PtrTable.Sound globaleNBIDHash w.idKey w.s1ByGeNBid
  active : ∀ e ∈ w.s1ByGeNBid, w.Active e.key
  under : ∀ e ∈ w.s1ByGeNBid, w.Under e.key e.value

namespace Registered

theorem init (served : List (List PLMN)) : (ENBRegistry.init served).Registered where
  fresh _ _ := rfl
  sound := ⟨nofun, List.Pairwise.nil⟩
  active := nofun
  under := nofun

theorem lt_fresh (hw : w.Registered) (hs : w.assocs a = some s) : a < w.fresh := by
  by_contra hle
  have hnone := hw.fresh a (Nat.le_of_not_lt hle)
  rw [hs] at hnone
  cases hnone

theorem under_active (hw : w.Registered) {e : PtrEntry UInt32} (he : e ∈ w.s1ByGeNBid) : w.Active e.value := by
  obtain ⟨s, hs, hactive, -⟩ := hw.under e he
  exact ⟨s, hs, hactive⟩

theorem ne_of_mem (hw : w.Registered) (ha : ¬ w.Active a) {e : PtrEntry UInt32} (he : e ∈ w.s1ByGeNBid) :
    e.key ≠ a ∧ e.value ≠ a := by
  constructor
  · rintro rfl
    exact ha (hw.active e he)
  · rintro rfl
    exact ha (hw.under_active he)

theorem update (hw : w.Registered) {o : Option ENBAssoc} (ha : a < w.fresh)
    (hne : ∀ e ∈ w.s1ByGeNBid, e.key ≠ a ∧ e.value ≠ a) :
    Registered { w with assocs := Function.update w.assocs a o } := by
  have hother : ∀ b, b ≠ a → Function.update w.assocs a o b = w.assocs b := fun b hb => Function.update_of_ne hb ..
  refine ⟨fun b hb => ?_, hw.sound.congr fun e he => ?_, fun e he => ?_, fun e he => ?_⟩
  · have hba : b ≠ a := by
      rintro rfl
      exact absurd ha (Nat.not_lt.mpr hb)
    exact (hother b hba).trans (hw.fresh b hb)
  · exact idKey_congr (hother e.key (hne e he).1)
  · obtain ⟨s, hs, hactive⟩ := hw.active e he
    exact ⟨s, (hother e.key (hne e he).1).trans hs, hactive⟩
  · exact (hw.under e he).congr (hother e.key (hne e he).1) (hother e.value (hne e he).2)

theorem setAssoc (hw : w.Registered) {s' : ENBAssoc} (hs : w.assocs a = some s) (hn : s.active = false) :
    (w.setAssoc a s').Registered :=
  hw.update (hw.lt_fresh hs) fun _ he => hw.ne_of_mem (not_active hs hn) he

theorem not_active_fresh (hw : w.Registered) : ¬ w.Active w.fresh := by
  rintro ⟨s, hs, -⟩
  exact Nat.lt_irrefl _ (hw.lt_fresh hs)

theorem lists_setAssoc (hw : w.Registered) (ha : ¬ w.Active a) {k : MMEGlobaleNBid} {b : Nat} :
    (w.setAssoc a s).Lists k b ↔ w.Lists k b :=
  PtrTable.Maps.congr fun _ he => idKey_congr (assocs_setAssoc_of_ne (hw.ne_of_mem ha he).1)

end Registered

/-- The table `t` when the association `a` was just registered: only `a` may be in it without being active. -/
structure JustRegistered (w : ENBRegistry) (a : Nat) (s : ENBAssoc) (t : PtrTable UInt32) : Prop where
  sound : PtrTable.Sound globaleNBIDHash w.idKey t
  active : ∀ e ∈ t, e.key = a ∨ w.Active e.key
  under : ∀ e ∈ t, (e.value = a ∧ w.idKey e.key = .ok s.globalENBID) ∨ w.Under e.key e.value

theorem mmeRegisterS1Assoc_of_registered (hw : w.Registered) (hs : w.assocs a = some s) :
    ∃ t, w.mmeRegisterS1Assoc a = .ok { w with s1ByGeNBid := t } ∧ w.JustRegistered a s t ∧
      PtrTable.Maps w.idKey t s.globalENBID a ∧ ∀ e ∈ w.s1ByGeNBid, w.idKey e.key ≠ .ok s.globalENBID → e ∈ t := by
  have hk := idKey_eq_ok.mpr ⟨s, hs, rfl⟩
  obtain ⟨t, old, hinsert, hsound, hkeys, hvalues, hnew, hother⟩ := PtrTable.insert_of_sound hw.sound hk a
  refine ⟨t, by simp [mmeRegisterS1Assoc, hk, hinsert], ⟨hsound, fun e he => ?_, fun e he => ?_⟩, hnew, hother⟩
  · rcases hkeys e he with hea | ⟨f, hf, hfe⟩
    · exact .inl hea
    · exact .inr (hfe ▸ hw.active f hf)
  · exact (hvalues e he).imp_right fun h => hw.under e h.1

theorem Registered.justRegistered (hw : w.Registered) (s : ENBAssoc) : w.JustRegistered a s w.s1ByGeNBid :=
  ⟨hw.sound, fun e he => .inr (hw.active e he), fun e he => .inr (hw.under e he)⟩

/-- The end of an association, whether it is in the table or not. -/
theorem disconnect_of_sound (hfresh : ∀ a, w.fresh ≤ a → w.assocs a = none)
    (ht : w.JustRegistered a s w.s1ByGeNBid) (hs : w.assocs a = some s) :
    ∃ v, w.disconnect a = .ok v ∧ v.Registered ∧ v.assocs = Function.update w.assocs a none ∧
      v.servedGUMMEIs = w.servedGUMMEIs ∧ (∀ b, ¬ v.Lists s.globalENBID b) ∧ w.Spares v s.globalENBID := by
  have hk := idKey_eq_ok.mpr ⟨s, hs, rfl⟩
  obtain ⟨t, old, hremove, hsound, hother⟩ := PtrTable.remove_of_sound ht.sound s.globalENBID
  have hkey : ∀ e ∈ t, e.key ≠ a := by
    rintro e he rfl
    exact ((hother e).mp he).2 hk
  have hunder : ∀ e ∈ t, w.Under e.key e.value :=
    fun e he => (ht.under e ((hother e).mp he).1).resolve_left fun h => ((hother e).mp he).2 h.2
  have hvalue : ∀ e ∈ t, e.value ≠ a := by
    rintro e he rfl
    obtain ⟨s', hs', -, -, hid⟩ := hunder e he
    obtain rfl : s = s' := Option.some.inj (hs.symm.trans hs')
    exact ((hother e).mp he).2 hid
  have ha : a < w.fresh := by
    by_contra hle
    exact absurd (hs.symm.trans (hfresh a (Nat.le_of_not_lt hle))) (Option.some_ne_none s)
  have hw : Registered { w with s1ByGeNBid := t } :=
    ⟨hfresh, hsound, fun e he => (ht.active e ((hother e).mp he).1).resolve_left (hkey e he), hunder⟩
  have hread : ∀ e ∈ t, idKey { w with s1ByGeNBid := t, assocs := Function.update w.assocs a none } e.key =
      w.idKey e.key := fun e he => idKey_congr (Function.update_of_ne (hkey e he) ..)
  refine ⟨_, by simp [disconnect, mmeDeregisterS1Assoc, hk, hremove],
    hw.update ha fun e he => ⟨hkey e he, hvalue e he⟩, rfl, rfl, fun b hb => ?_, fun k b hne hb => ?_⟩
  · obtain ⟨e, he, hek, -⟩ := (PtrTable.Maps.congr hread).mp hb
    exact ((hother e).mp he).2 hek
  · obtain ⟨e, he, hek, hvalue⟩ := hb
    exact (PtrTable.Maps.congr hread).mpr
      ⟨e, (hother e).mpr ⟨he, fun h => hne (Except.ok.inj (hek.symm.trans h))⟩, hek, hvalue⟩

/-! ## A message in S1_NotConfigured -/

/-- The association with what a message that is not ignored leaves in it. -/
def overwritten (s : ENBAssoc) (m : S1SetupMsg) (gid : GlobalENBID) (rSid : Nat) : ENBAssoc :=
  { s with
    nonueRsid := rSid
    eNBname := m.eNBname.getD s.eNBname
    globalENBID := globaleNBIDFill gid
    supportedTAs := m.supportedTAs }

section NotConfigured

variable (hs : w.assocs a = some s) (hn : s.active = false)

include hs hn

theorem step_eq : w.step (.s1ap a m rSid) =
    w.notConfiguredProcessMsg a s m rSid >>= fun r => if r.2 then r.1.disconnect a else .ok r.1 := by
  simp [step, deref_eq_ok.mpr ⟨a, rfl, hs⟩, hn]

theorem step_ignored (hm : m.Ignored) :
    w.step (.s1ap a m rSid) = .ok (w.setAssoc a { s with nonueRsid := rSid }) := by
  rw [step_eq hs hn, notConfiguredProcessMsg, if_pos hm]
  rfl

theorem step_noGlobalENBID (hm : ¬ m.Ignored) (hgid : m.globalENBID = none) :
    w.step (.s1ap a m rSid) = .error .nullDeref := by
  rw [step_eq hs hn, notConfiguredProcessMsg, if_neg hm]
  simp only [hgid]
  rfl

variable {gid : GlobalENBID} {tas : SupportedTAs}

theorem step_noSupportedTAs (hm : ¬ m.Ignored) (hgid : m.globalENBID = some gid) (htas : m.supportedTAs = none) :
    w.step (.s1ap a m rSid) = .ok (w.setAssoc a (overwritten s m gid rSid)) := by
  rw [step_eq hs hn, notConfiguredProcessMsg, if_neg hm]
  simp only [hgid, htas, overwritten]
  rfl

/-- With both information elements the association is registered before the PLMNs are compared. -/
theorem notConfiguredProcessMsg_registers (rSid : Nat) (hw : w.Registered) (hm : ¬ m.Ignored) (hgid : m.globalENBID = some gid)
    (htas : m.supportedTAs = some tas) :
    ∃ t, (w.setAssoc a (overwritten s m gid rSid)).JustRegistered a (overwritten s m gid rSid) t ∧
      Lists { w.setAssoc a (overwritten s m gid rSid) with s1ByGeNBid := t } (globaleNBIDFill gid) a ∧
      w.Spares { w.setAssoc a (overwritten s m gid rSid) with s1ByGeNBid := t } (globaleNBIDFill gid) ∧
      w.notConfiguredProcessMsg a s m rSid =
        if w.mmeContainsSupportedTAs tas then
          .ok ({ w.setAssoc a { overwritten s m gid rSid with active := true } with s1ByGeNBid := t }, false)
        else .ok ({ w.setAssoc a (overwritten s m gid rSid) with s1ByGeNBid := t }, true) := by
  have hw' : (w.setAssoc a (overwritten s m gid rSid)).Registered := hw.setAssoc hs hn
  obtain ⟨t, hreg, ht, hnew, hother⟩ := mmeRegisterS1Assoc_of_registered hw' assocs_setAssoc_self
  refine ⟨t, ht, hnew, fun k b hne hb => ?_, ?_⟩
  · obtain ⟨e, he, hek, hvalue⟩ := (hw.lists_setAssoc (not_active hs hn)).mpr hb
    exact ⟨e, hother e he fun h => hne (Except.ok.inj (hek.symm.trans h)), hek, hvalue⟩
  rw [notConfiguredProcessMsg, if_neg hm]
  simp only [overwritten, htas] at hreg ⊢
  simp only [hgid, hreg, ok_bind]
  simp only [setAssoc, Function.update_idem]
  rfl

theorem step_served (rSid : Nat) (hw : w.Registered) (hm : ¬ m.Ignored) (hgid : m.globalENBID = some gid)
    (htas : m.supportedTAs = some tas) (hserved : w.mmeContainsSupportedTAs tas = true) :
    ∃ v, w.step (.s1ap a m rSid) = .ok v ∧ v.Registered ∧
      v.assocs = Function.update w.assocs a (some { overwritten s m gid rSid with active := true }) ∧
      v.servedGUMMEIs = w.servedGUMMEIs ∧ v.Lists (globaleNBIDFill gid) a ∧ w.Spares v (globaleNBIDFill gid) := by
  obtain ⟨t, ht, hnew, hspares, hmsg⟩ := notConfiguredProcessMsg_registers hs hn rSid hw hm hgid htas
  rw [if_pos hserved] at hmsg
  have hstep : w.step (.s1ap a m rSid) =
      .ok { w.setAssoc a { overwritten s m gid rSid with active := true } with s1ByGeNBid := t } := by
    rw [step_eq hs hn, hmsg]
    rfl
  have hid : ∀ b, (w.setAssoc a { overwritten s m gid rSid with active := true }).idKey b =
      (w.setAssoc a (overwritten s m gid rSid)).idKey b := idKey_setAssoc_congr rfl
  have hother : ∀ b, b ≠ a → (w.setAssoc a { overwritten s m gid rSid with active := true }).assocs b =
      (w.setAssoc a (overwritten s m gid rSid)).assocs b :=
    fun b hb => (assocs_setAssoc_of_ne hb).trans (assocs_setAssoc_of_ne hb).symm
  have hself : ∀ b, (w.setAssoc a (overwritten s m gid rSid)).idKey b = .ok (overwritten s m gid rSid).globalENBID →
      (w.setAssoc a { overwritten s m gid rSid with active := true }).Under b a :=
    fun b hb => ⟨_, assocs_setAssoc_self, rfl, by simp [overwritten, htas], (hid b).trans hb⟩
  have hlists : ∀ {k b}, Lists { w.setAssoc a { overwritten s m gid rSid with active := true } with s1ByGeNBid := t } k b ↔
      Lists { w.setAssoc a (overwritten s m gid rSid) with s1ByGeNBid := t } k b :=
    PtrTable.Maps.congr fun e _ => hid e.key
  refine ⟨_, hstep, ⟨?_, ?_, ?_, ?_⟩, rfl, rfl, hlists.mpr hnew,
    fun k b hne hb => hlists.mpr (hspares k b hne hb)⟩
  · exact (hw.setAssoc hs hn).fresh
  · exact ht.sound.congr fun e _ => hid e.key
  · intro e he
    by_cases hea : e.key = a
    · rw [hea]
      exact ⟨_, assocs_setAssoc_self, rfl⟩
    · obtain ⟨s', hs', hs'a⟩ := (ht.active e he).resolve_left hea
      exact ⟨s', (hother _ hea).trans hs', hs'a⟩
  · intro e he
    rcases ht.under e he with ⟨hea, hk⟩ | ⟨s', hs', hactive, htas', hk⟩
    · exact hea ▸ hself e.key hk
    · by_cases hea : e.value = a
      · rw [hea] at hs' ⊢
        cases assocs_setAssoc_self.symm.trans hs'
        exact hself e.key hk
      · exact ⟨s', (hother _ hea).trans hs', hactive, htas', (hid e.key).trans hk⟩

theorem step_rejected (rSid : Nat) (hw : w.Registered) (hm : ¬ m.Ignored) (hgid : m.globalENBID = some gid)
    (htas : m.supportedTAs = some tas) (hserved : w.mmeContainsSupportedTAs tas = false) :
    ∃ v, w.step (.s1ap a m rSid) = .ok v ∧ v.Registered ∧ v.assocs = Function.update w.assocs a none ∧
      v.servedGUMMEIs = w.servedGUMMEIs ∧ (∀ b, ¬ v.Lists (globaleNBIDFill gid) b) ∧
      w.Spares v (globaleNBIDFill gid) := by
  obtain ⟨t, ht, -, hspares, hmsg⟩ := notConfiguredProcessMsg_registers hs hn rSid hw hm hgid htas
  rw [if_neg (by simp [hserved])] at hmsg
  have hdisc := disconnect_of_sound (w := { w.setAssoc a (overwritten s m gid rSid) with s1ByGeNBid := t })
    (hw.setAssoc hs hn).fresh ⟨ht.sound, ht.active, ht.under⟩ assocs_setAssoc_self
  obtain ⟨v, hv, hvr, hva, hvs, hnone, hspares'⟩ := hdisc
  refine ⟨v, by rw [step_eq hs hn, hmsg]; exact hv, hvr, hva.trans ?_, hvs, hnone,
    fun k b hne hb => hspares' k b hne (hspares k b hne hb)⟩
  exact Function.update_idem ..

end NotConfigured

/-! ## Runs -/

theorem Registered.accept (hw : w.Registered) :
    Registered { w.setAssoc w.fresh s1AssocInit with fresh := w.fresh + 1 } := by
  have hw' : Registered { w with fresh := w.fresh + 1 } :=
    ⟨fun a ha => hw.fresh a (Nat.le_of_succ_le ha), hw.sound, hw.active, hw.under⟩
  exact hw'.update (Nat.lt_succ_self _) fun e he => hw.ne_of_mem hw.not_active_fresh he

theorem active_of_update {o : Option ENBAssoc} (hv : v.assocs = Function.update w.assocs a o)
    (ho : ∀ s, o = some s → s.active = false) {b : Nat} (h : v.Active b) : w.Active b := by
  obtain ⟨s, hs, hactive⟩ := h
  by_cases hba : b = a
  · rw [hv, hba, Function.update_self] at hs
    rw [ho s hs] at hactive
    cases hactive
  · rw [hv, Function.update_of_ne hba] at hs
    exact ⟨s, hs, hactive⟩

/-- What makes an association active: both information elements, with a PLMN that is served. -/
structure SetsUp (w : ENBRegistry) (m : S1SetupMsg) : Prop where
  notIgnored : ¬ m.Ignored
  globalENBID : m.globalENBID.isSome = true
  supportedTAs : ∃ tas, m.supportedTAs = some tas ∧ w.mmeContainsSupportedTAs tas = true

/-- What one event does. -/
structure Moves (w v : ENBRegistry) (e : ENBEvent) : Prop where
  registered : v.Registered
  served : v.servedGUMMEIs = w.servedGUMMEIs
  active : ∀ a, v.Active a → w.Active a ∨ ∃ m rSid, e = .s1ap a m rSid ∧ w.SetsUp m

theorem moves_notConfigured (hw : w.Registered) (hs : w.assocs a = some s) (hn : s.active = false)
    (h : w.step (.s1ap a m rSid) = .ok v) : w.Moves v (.s1ap a m rSid) := by
  have hkeeps : ∀ s', s'.active = s.active → w.Moves (w.setAssoc a s') (.s1ap a m rSid) := by
    intro s' hs'
    refine ⟨hw.setAssoc hs hn, rfl, fun b hb => .inl (active_of_update rfl ?_ hb)⟩
    rintro _ ⟨⟩
    exact hs'.trans hn
  by_cases hm : m.Ignored
  · rw [step_ignored hs hn hm, Except.ok.injEq] at h
    subst h
    exact hkeeps _ rfl
  · rcases hgid : m.globalENBID with _ | gid
    · rw [step_noGlobalENBID hs hn hm hgid] at h
      cases h
    · rcases htas : m.supportedTAs with _ | tas
      · rw [step_noSupportedTAs hs hn hm hgid htas, Except.ok.injEq] at h
        subst h
        exact hkeeps _ rfl
      · rcases hserved : w.mmeContainsSupportedTAs tas with _ | _
        · obtain ⟨v', hv', hreg, hassocs, hgummeis, -⟩ := step_rejected hs hn rSid hw hm hgid htas hserved
          cases h.symm.trans hv'
          exact ⟨hreg, hgummeis, fun b hb => .inl (active_of_update hassocs nofun hb)⟩
        · obtain ⟨v', hv', hreg, hassocs, hgummeis, -⟩ := step_served hs hn rSid hw hm hgid htas hserved
          cases h.symm.trans hv'
          refine ⟨hreg, hgummeis, fun b hb => ?_⟩
          by_cases hba : b = a
          · subst hba
            exact .inr ⟨m, rSid, rfl, hm, by rw [hgid]; rfl, tas, htas, hserved⟩
          · obtain ⟨s', hs', hactive⟩ := hb
            rw [hassocs, Function.update_of_ne hba] at hs'
            exact .inl ⟨s', hs', hactive⟩

theorem moves_step (hw : w.Registered) {e : ENBEvent} (h : w.step e = .ok v) : w.Moves v e := by
  cases e with
  | accept =>
    rw [step, Except.ok.injEq] at h
    subst h
    refine ⟨hw.accept, rfl, fun b hb => .inl (active_of_update rfl ?_ hb)⟩
    rintro _ ⟨⟩
    rfl
  | s1ap a m rSid =>
    obtain ⟨s, hderef, -⟩ := bind_eq_ok.mp h
    obtain ⟨_, ⟨⟩, hs⟩ := deref_eq_ok.mp hderef
    rcases hn : s.active with _ | _
    · exact moves_notConfigured hw hs hn h
    · obtain rfl : w = v := by simpa [step, hderef, hn] using h
      exact ⟨hw, rfl, fun b hb => .inl hb⟩
  | closed a =>
    obtain ⟨w', hw', -⟩ := bind_eq_ok.mp h
    obtain ⟨k, hk, -⟩ := bind_eq_ok.mp hw'
    obtain ⟨s, hs, -⟩ := idKey_eq_ok.mp hk
    obtain ⟨v', hv', hreg, hassocs, hgummeis, -⟩ :=
      disconnect_of_sound hw.fresh (hw.justRegistered s) hs
    cases h.symm.trans hv'
    exact ⟨hreg, hgummeis, fun b hb => .inl (active_of_update hassocs nofun hb)⟩

theorem registered_of_run {served : List (List PLMN)} {es : List ENBEvent}
    (hrun : Run step (fun _ _ => True) (init served) es w) : w.Registered :=
  hrun.invariant (fun _ _ _ hw _ h => (moves_step hw h).registered) (.init served)

/-! ## The gate -/

/-- An S1 Setup Request that the MME accepts. -/
structure SetupRequest (w : ENBRegistry) (m : S1SetupMsg) : Prop where
  procedureCode : m.procedureCode = .s1Setup
  choice : m.choice = .initiatingMessage
  globalENBID : ∃ gid, .globalENBID gid ∈ m.ies
  supportedTAs : ∃ tas, .supportedTAs tas ∈ m.ies ∧
    ∃ item ∈ tas, ∃ plmn ∈ item.broadcastPLMNs, ∃ served ∈ w.servedGUMMEIs, plmn ∈ served

/-- The state, the name and the identifier of the association and the table are as they were. -/
def Unchanged (w v : ENBRegistry) (a : Nat) (s : ENBAssoc) : Prop :=
  ∃ s', v.assocs a = some s' ∧ s'.active = s.active ∧ s'.eNBname = s.eNBname ∧ s'.globalENBID = s.globalENBID ∧
    v.s1ByGeNBid = w.s1ByGeNBid

/-- The gate of S1 Setup for a message `m` of the association `a`, whose record is `s`: the message is processed,
it makes the association active only if it is an S1 Setup Request that the MME accepts, and otherwise it changes
nothing; and no other event makes the association active. -/
structure Gate (w : ENBRegistry) (a : Nat) (s : ENBAssoc) (m : S1SetupMsg) (rSid : Nat) : Prop where
  message : ∃ v, w.step (.s1ap a m rSid) = .ok v ∧ (v.Active a → w.SetupRequest m) ∧
    (¬ w.SetupRequest m → w.Unchanged v a s)
  other : ∀ e v, w.step e = .ok v → v.Active a → ∃ m rSid, e = .s1ap a m rSid

/-- A message that writes what is there already, and has no tracking areas. -/
structure Repeats (s : ENBAssoc) (m : S1SetupMsg) : Prop where
  eNBname : m.eNBname.getD s.eNBname = s.eNBname
  globalENBID : m.globalENBID.map globaleNBIDFill = some s.globalENBID
  supportedTAs : m.supportedTAs = none

/-! The searches find the information elements. -/

theorem globalENBID_isSome : m.globalENBID.isSome = true ↔ ∃ gid, .globalENBID gid ∈ m.ies := by
  rw [S1SetupMsg.globalENBID, List.findSome?_isSome_iff]
  constructor
  · rintro ⟨x, hx, hsome⟩
    cases x with
    | globalENBID gid => exact ⟨gid, hx⟩
    | _ => cases hsome
  · rintro ⟨gid, hx⟩
    exact ⟨_, hx, rfl⟩

theorem supportedTAs_eq_some {tas : SupportedTAs} (h : .supportedTAs tas ∈ m.ies) : ∃ tas', m.supportedTAs = some tas' := by
  refine Option.isSome_iff_exists.mp (List.findSome?_isSome_iff.mpr ⟨_, List.mem_reverse.mpr h, rfl⟩)

theorem SetupRequest.not_ignored (h : w.SetupRequest m) : ¬ m.Ignored := fun hm => hm.1 h.procedureCode

theorem SetupRequest.step (h : w.SetupRequest m) (rSid : Nat) (hw : w.Registered) (hs : w.assocs a = some s)
    (hn : s.active = false) : ∃ v, w.step (.s1ap a m rSid) = .ok v := by
  obtain ⟨gid, hgid⟩ := Option.isSome_iff_exists.mp (globalENBID_isSome.mpr h.globalENBID)
  obtain ⟨_, hmem, -⟩ := h.supportedTAs
  obtain ⟨tas, htas⟩ := supportedTAs_eq_some hmem
  rcases hserved : w.mmeContainsSupportedTAs tas with _ | _
  · obtain ⟨v, hv, -⟩ := step_rejected hs hn rSid hw h.not_ignored hgid htas hserved
    exact ⟨v, hv⟩
  · obtain ⟨v, hv, -⟩ := step_served hs hn rSid hw h.not_ignored hgid htas hserved
    exact ⟨v, hv⟩

/-- A message that leaves an association as it was, but for what is not part of the gate. -/
theorem gate_of_setAssoc {s' : ENBAssoc} (hw : w.Registered) (hs : w.assocs a = some s) (hn : s.active = false)
    (hstep : w.step (.s1ap a m rSid) = .ok (w.setAssoc a s')) (hactive : s'.active = s.active)
    (hname : s'.eNBname = s.eNBname) (hid : s'.globalENBID = s.globalENBID) : w.Gate a s m rSid where
  message := by
    refine ⟨_, hstep, fun h => absurd h ?_, fun _ => ⟨s', assocs_setAssoc_self, hactive, hname, hid, rfl⟩⟩
    exact not_active assocs_setAssoc_self (hactive.trans hn)
  other e v h hv := by
    rcases (moves_step hw h).active a hv with h | ⟨m, rSid, he, -⟩
    · exact absurd h (not_active hs hn)
    · exact ⟨m, rSid, he⟩

theorem gate_iff (hw : w.Registered) (hs : w.assocs a = some s) (hn : s.active = false) :
    w.Gate a s m rSid ↔ w.SetupRequest m ∨ m.Ignored ∨ Repeats s m := by
  constructor
  · intro ⟨⟨v, hv, hset, hkeep⟩, _⟩
    by_cases hreq : w.SetupRequest m
    · exact .inl hreq
    obtain ⟨s', hs', -, hname, hid, -⟩ := hkeep hreq
    by_cases hm : m.Ignored
    · exact .inr (.inl hm)
    refine .inr (.inr ?_)
    rcases hgid : m.globalENBID with _ | gid
    · rw [step_noGlobalENBID hs hn hm hgid] at hv
      cases hv
    rcases htas : m.supportedTAs with _ | tas
    · rw [step_noSupportedTAs hs hn hm hgid htas, Except.ok.injEq] at hv
      subst hv
      cases assocs_setAssoc_self.symm.trans hs'
      exact ⟨hname, by rw [hgid]; exact congrArg some hid, htas⟩
    · rcases hserved : w.mmeContainsSupportedTAs tas with _ | _
      · -- the association is gone
        obtain ⟨v', hv', -, hassocs, -⟩ := step_rejected hs hn rSid hw hm hgid htas hserved
        cases hv.symm.trans hv'
        rw [hassocs, Function.update_self] at hs'
        cases hs'
      · -- the association is active
        obtain ⟨v', hv', -, hassocs, -⟩ := step_served hs hn rSid hw hm hgid htas hserved
        cases hv.symm.trans hv'
        exact absurd (hset ⟨_, by rw [hassocs, Function.update_self], rfl⟩) hreq
  · rintro (hreq | hm | hrep)
    · refine ⟨?_, fun e v h hv => ?_⟩
      · obtain ⟨v, hv⟩ := hreq.step rSid hw hs hn
        exact ⟨v, hv, fun _ => hreq, (absurd hreq)⟩
      · rcases (moves_step hw h).active a hv with h | ⟨m, rSid, he, -⟩
        · exact absurd h (not_active hs hn)
        · exact ⟨m, rSid, he⟩
    · exact gate_of_setAssoc hw hs hn (step_ignored hs hn hm) rfl rfl rfl
    · by_cases hm : m.Ignored
      · exact gate_of_setAssoc hw hs hn (step_ignored hs hn hm) rfl rfl rfl
      obtain ⟨gid, hgid, hfill⟩ := Option.map_eq_some_iff.mp hrep.globalENBID
      exact gate_of_setAssoc hw hs hn (step_noSupportedTAs hs hn hm hgid hrep.supportedTAs) rfl hrep.eNBname hfill

/-- **S1 Setup.** In every state that is reached, for every association in S1_NotConfigured and every message of
it, the gate holds if the message is an S1 Setup Request that the MME accepts, if it is neither an S1 Setup nor an
initiating message, or if it has no tracking areas and repeats the name and the identifier that the association
has already; and in no other case. -/
theorem s1Setup_gate {served : List (List PLMN)} {es : List ENBEvent} {w : ENBRegistry}
    (hrun : Run step (fun _ _ => True) (init served) es w) {a : Nat} {s : ENBAssoc} (hs : w.assocs a = some s)
    (hn : s.active = false) (m : S1SetupMsg) (rSid : Nat) :
    w.Gate a s m rSid ↔ w.SetupRequest m ∨ m.Ignored ∨ Repeats s m :=
  gate_iff (registered_of_run hrun) hs hn

/-! An MME that serves one PLMN, and an S1 Setup of a macro eNodeB that broadcasts it. -/

def samplePLMN : PLMN := ⟨0x42, 0xF4, 0x10⟩

def sampleSetup (choice : S1Choice) : S1SetupMsg where
  procedureCode := .s1Setup
  choice := choice
  ies := [.globalENBID ⟨samplePLMN, ⟨0, 0x12345⟩⟩, .eNBname [0x65, 0x31], .supportedTAs [⟨[0, 1], [samplePLMN]⟩]]

/-- The MME of the sample after the first eNodeB connected. -/
def sampleAccepted : ENBRegistry := { (init [[samplePLMN]]).setAssoc 0 s1AssocInit with fresh := 1 }

theorem run_sampleAccepted : Run step (fun _ _ => True) (init [[samplePLMN]]) [.accept] sampleAccepted :=
  .single trivial rfl

theorem s1Setup_gate_request : sampleAccepted.Gate 0 s1AssocInit (sampleSetup .initiatingMessage) 0 := by
  refine (s1Setup_gate run_sampleAccepted rfl rfl _ _).mpr (.inl ⟨rfl, rfl, ?_, ?_⟩)
  · exact ⟨_, List.mem_cons_self⟩
  · refine ⟨[⟨[0, 1], [samplePLMN]⟩], by simp [sampleSetup], _, List.mem_cons_self, samplePLMN, List.mem_cons_self, ?_⟩
    exact ⟨[samplePLMN], List.mem_cons_self, List.mem_cons_self⟩

/-- The answer to an S1 Setup is taken for a request. -/
theorem s1Setup_gate_fails : Run step (fun _ _ => True) (init [[samplePLMN]]) [.accept] sampleAccepted ∧
    (∃ v, sampleAccepted.step (.s1ap 0 (sampleSetup .successfulOutcome) 0) = .ok v ∧ v.Active 0) ∧
    ¬ sampleAccepted.Gate 0 s1AssocInit (sampleSetup .successfulOutcome) 0 := by
  have hstep : ∃ v, sampleAccepted.step (.s1ap 0 (sampleSetup .successfulOutcome) 0) = .ok v ∧ v.Active 0 :=
    ⟨_, rfl, _, rfl, rfl⟩
  refine ⟨run_sampleAccepted, hstep, fun hgate => ?_⟩
  obtain ⟨v, hv, hactive⟩ := hstep
  obtain ⟨v', hv', hset, -⟩ := hgate.message
  cases hv.symm.trans hv'
  exact absurd (hset hactive).choice nofun

/-! ## The model without the table -/

/-- The two models have the same associations in the same states. -/
def Agrees (w : ENBRegistry) (u : MME) : Prop :=
  ∀ a, (w.assocs a).map (fun s => (s.active, s.nonueRsid)) = (u.assocs a).map fun s => (s.active, s.nonueRsid)

theorem Agrees.update {u : MME} (h : w.Agrees u) {o : Option ENBAssoc} {o' : Option S1Assoc}
    (ho : o.map (fun s => (s.active, s.nonueRsid)) = o'.map fun s => (s.active, s.nonueRsid)) {v : ENBRegistry}
    {u' : MME} (hv : v.assocs = Function.update w.assocs a o) (hu : u'.assocs = Function.update u.assocs a o') :
    v.Agrees u' := by
  intro b
  rw [hv, hu]
  by_cases hba : b = a
  · rw [hba, Function.update_self, Function.update_self]
    exact ho
  · rw [Function.update_of_ne hba, Function.update_of_ne hba]
    exact h b

/-- A message as the other model has it. -/
def Abstracts (w : ENBRegistry) (m : S1SetupMsg) (msg : S1APMsg) : Prop :=
  msg.procedureCode = m.procedureCode ∧ msg.choice = m.choice ∧ msg.globalENBId = m.globalENBID.isSome ∧
    msg.supportedTAs = m.supportedTAs.map w.mmeContainsSupportedTAs

/-- The state in which the MME model leaves an association that is not configured is that of this model. -/
theorem agrees_notConfigured {u : MME} {x : Env} {s' : S1Assoc} {msg : S1APMsg} (hw : w.Registered) (h : w.Agrees u)
    (hs : w.assocs a = some s) (hn : s.active = false) (hs' : u.assocs a = some s') (hecm : s'.ecmSessions = [])
    (hmsg : w.Abstracts m msg) :
    (∃ v u', w.step (.s1ap a m rSid) = .ok v ∧ u.notConfiguredProcessMsg x a s' msg rSid = .ok u' ∧ v.Agrees u') ∨
      (w.step (.s1ap a m rSid) = .error .nullDeref ∧
        u.notConfiguredProcessMsg x a s' msg rSid = .error .nullDeref) := by
  obtain ⟨hcode, hchoice, hgid', htas'⟩ := hmsg
  have hs'n : s'.active = false := by
    have := h a
    rw [hs, hs'] at this
    simp only [Option.map_some, Option.some.injEq, Prod.mk.injEq] at this
    exact this.1.symm.trans hn
  by_cases hm : m.Ignored
  · refine .inl ⟨_, u.setAssoc a { s' with nonueRsid := rSid }, step_ignored hs hn hm, ?_, ?_⟩
    · rw [MME.notConfiguredProcessMsg, if_pos (by rw [hcode, hchoice]; exact hm)]
    · exact h.update (by simp [hn, hs'n]) rfl rfl
  have hm' : ¬ (msg.procedureCode ≠ .s1Setup ∧ msg.choice ≠ .initiatingMessage) := by
    rw [hcode, hchoice]
    exact hm
  rcases hgid : m.globalENBID with _ | gid
  · refine .inr ⟨step_noGlobalENBID hs hn hm hgid, ?_⟩
    rw [MME.notConfiguredProcessMsg, if_neg hm', if_pos (by simp [hgid', hgid])]
  have hgid'' : ¬ (!msg.globalENBId) = true := by simp [hgid', hgid]
  left
  rcases htas : m.supportedTAs with _ | tas
  · refine ⟨_, u.setAssoc a { s' with nonueRsid := rSid }, step_noSupportedTAs hs hn hm hgid htas, ?_, ?_⟩
    · simp only [MME.notConfiguredProcessMsg, if_neg hm', if_neg hgid'', htas', htas, Option.map_none]
    · exact h.update (by simp [overwritten, hn, hs'n]) rfl rfl
  rcases hserved : w.mmeContainsSupportedTAs tas with _ | _
  · obtain ⟨v, hv, -, hassocs, -⟩ := step_rejected hs hn rSid hw hm hgid htas hserved
    have hfree : (u.setAssoc a { s' with nonueRsid := rSid }).s1AssocFree x a =
        .ok { u with assocs := Function.update u.assocs a none } := by
      simp [MME.s1AssocFree, MME.setAssoc, deref, hecm]
    refine ⟨v, _, hv, Eq.trans ?_ hfree, h.update rfl hassocs rfl⟩
    simp only [MME.notConfiguredProcessMsg, if_neg hm', if_neg hgid'', htas', htas, Option.map_some, hserved]
  · obtain ⟨v, hv, -, hassocs, -⟩ := step_served hs hn rSid hw hm hgid htas hserved
    refine ⟨v, (u.setAssoc a { s' with nonueRsid := rSid }).setAssoc a { s' with nonueRsid := rSid, active := true }, hv,
      ?_, h.update (by simp [overwritten]) hassocs (Function.update_idem ..)⟩
    simp only [MME.notConfiguredProcessMsg, if_neg hm', if_neg hgid'', htas', htas, Option.map_some, hserved]

end ENBRegistry

end AaltoMME
