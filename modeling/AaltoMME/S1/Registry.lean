import AaltoMME.S1.Setup

/-!
# The registry of the eNodeBs

The table by global identifier is meant to have every association in S1_Active under the identifier of its
eNodeB.  Registering comes before the tracking areas are looked at, and an association that ends is removed by
its identifier, whatever stands under it.  So the table is right as long as the eNodeB of no other association in
S1_Active has the identifier in question, and wrong as soon as one has.  The identifier that is compared is not
the one of the message: a home eNodeB keeps 16 of its 28 bits.
-/

namespace AaltoMME

open Base

/-! ## Identifiers -/

/-- `globaleNBID_Equal`. -/
def globaleNBIDEqual (a b : MMEGlobaleNBid) : Bool :=
  a.plmn.tbcd = b.plmn.tbcd && a.macroId == b.macroId && a.eNBid == b.eNBid

theorem globaleNBIDEqual_iff {a b : MMEGlobaleNBid} : globaleNBIDEqual a b = true ↔ a = b := by
  obtain ⟨⟨p⟩, ma, ia⟩ := a
  obtain ⟨⟨q⟩, mb, ib⟩ := b
  simp [globaleNBIDEqual, and_assoc]

namespace GlobalENBID

/-- A macro identifier has 20 bits, a home identifier 28. -/
def Legal (gid : GlobalENBID) : Prop :=
  (gid.eNBid.choice = 0 ∧ gid.eNBid.id.toNat < 2 ^ 20) ∨ (gid.eNBid.choice = 1 ∧ gid.eNBid.id.toNat < 2 ^ 28)

/-- Two home eNodeBs of one PLMN whose identifiers differ, but not in their last 16 bits. -/
def Aliases (a b : GlobalENBID) : Prop :=
  a.pLMNidentity = b.pLMNidentity ∧ a.eNBid.choice = 1 ∧ b.eNBid.choice = 1 ∧ a.eNBid.id ≠ b.eNBid.id ∧
    a.eNBid.id.toNat % 2 ^ 16 = b.eNBid.id.toNat % 2 ^ 16

end GlobalENBID

theorem shiftLeft_and_inj {x y k : UInt32} (hk : k.toNat < 28) :
    (x <<< k) &&& 0x0FFFFFFF = (y <<< k) &&& 0x0FFFFFFF ↔
      x.toNat % 2 ^ (28 - k.toNat) = y.toNat % 2 ^ (28 - k.toNat) := by
  have hsplit : (2 : Nat) ^ 28 = 2 ^ (28 - k.toNat) * 2 ^ k.toNat := by
    rw [← Nat.pow_add, Nat.sub_add_cancel (Nat.le_of_lt hk)]
  have htoNat : ∀ x : UInt32, ((x <<< k) &&& 0x0FFFFFFF).toNat = x.toNat % 2 ^ (28 - k.toNat) * 2 ^ k.toNat := by
    intro x
    rw [UInt32.toNat_and, UInt32.toNat_shiftLeft, Nat.mod_eq_of_lt (Nat.lt_trans hk (by decide)), Nat.shiftLeft_eq]
    show (_ % 2 ^ 32) &&& (2 ^ 28 - 1) = _
    rw [Nat.and_two_pow_sub_one_eq_mod, Nat.mod_mod_of_dvd _ (Nat.pow_dvd_pow 2 (by decide)), hsplit,
      Nat.mul_mod_mul_right]
  rw [← UInt32.toNat_inj, htoNat, htoNat]
  exact Nat.mul_left_inj (Nat.ne_of_gt (Nat.two_pow_pos _))

/-- A macro identifier keeps 24 bits, a home identifier 16. -/
theorem globaleNBIDFill_inj {a b : GlobalENBID} : globaleNBIDFill a = globaleNBIDFill b ↔
    a.pLMNidentity = b.pLMNidentity ∧
      ((a.eNBid.choice = 0 ∧ b.eNBid.choice = 0 ∧ a.eNBid.id.toNat % 2 ^ 24 = b.eNBid.id.toNat % 2 ^ 24) ∨
        (a.eNBid.choice ≠ 0 ∧ b.eNBid.choice ≠ 0 ∧ a.eNBid.id.toNat % 2 ^ 16 = b.eNBid.id.toNat % 2 ^ 16)) := by
  have hmacro := shiftLeft_and_inj (x := a.eNBid.id) (y := b.eNBid.id) (k := 4) (by decide)
  have hhome := shiftLeft_and_inj (x := a.eNBid.id) (y := b.eNBid.id) (k := 12) (by decide)
  unfold globaleNBIDFill
  split <;> split <;> simp_all

/-- **Global eNodeB identities.** The keys of two identities are the same if and only if the identities are, and
the same keys have the same hash: for all identities but those of two home eNodeBs of one PLMN that agree in their
last 16 bits. -/
theorem globaleNBIDFill_faithful_iff {a b : GlobalENBID} (ha : a.Legal) (hb : b.Legal) :
    ((globaleNBIDEqual (globaleNBIDFill a) (globaleNBIDFill b) = true ↔ a = b) ∧
      ∀ k k', globaleNBIDEqual k k' = true → globaleNBIDHash k = globaleNBIDHash k') ↔ ¬ a.Aliases b := by
  have hhash : ∀ k k', globaleNBIDEqual k k' = true → globaleNBIDHash k = globaleNBIDHash k' :=
    fun k k' h => congrArg _ (globaleNBIDEqual_iff.mp h)
  rw [globaleNBIDEqual_iff, and_iff_left hhash, globaleNBIDFill_inj]
  constructor
  · rintro h ⟨hplmn, ha₁, hb₁, hne, hlow⟩
    exact hne (congrArg (·.eNBid.id) (h.mp ⟨hplmn, .inr ⟨by simp [ha₁], by simp [hb₁], hlow⟩⟩))
  · intro h
    constructor
    · obtain ⟨pa, ca, ia⟩ := a
      obtain ⟨pb, cb, ib⟩ := b
      rintro ⟨rfl, ⟨hca, hcb, hid⟩ | ⟨hca, hcb, hid⟩⟩
      · -- 20 bits are less than 24
        have hia : ia.toNat < 2 ^ 20 := (ha.resolve_right fun h => by simp_all).2
        have hib : ib.toNat < 2 ^ 20 := (hb.resolve_right fun h => by simp_all).2
        obtain rfl : ia = ib := UInt32.toNat_inj.mp (by simp only at hid; omega)
        simp_all
      · have hca' := (ha.resolve_left fun h => hca h.1).1
        have hcb' := (hb.resolve_left fun h => hcb h.1).1
        have hid' : ia = ib := by_contra fun hne => h ⟨rfl, hca', hcb', hne, hid⟩
        simp_all
    · rintro rfl
      exact ⟨rfl, (em (a.eNBid.choice = 0)).imp (fun h => ⟨h, h, rfl⟩) fun h => ⟨h, h, rfl⟩⟩

theorem globaleNBIDFill_faithful_macro : globaleNBIDEqual (globaleNBIDFill ⟨⟨0x42, 0xF4, 0x10⟩, 0, 1⟩)
    (globaleNBIDFill ⟨⟨0x42, 0xF4, 0x10⟩, 0, 0x10001⟩) = false := by
  have h := (globaleNBIDFill_faithful_iff (a := ⟨⟨0x42, 0xF4, 0x10⟩, 0, 1⟩) (b := ⟨⟨0x42, 0xF4, 0x10⟩, 0, 0x10001⟩)
    (.inl (by decide)) (.inl (by decide))).mpr (by rintro ⟨-, ⟨⟩, -⟩)
  exact Bool.eq_false_iff.mpr fun heq => absurd (h.1.mp heq) (by decide)

/-- Two home eNodeBs with one key. -/
theorem not_globaleNBIDFill_faithful : ∃ a b : GlobalENBID, a.Legal ∧ b.Legal ∧ a ≠ b ∧
    globaleNBIDEqual (globaleNBIDFill a) (globaleNBIDFill b) = true :=
  ⟨⟨⟨0x42, 0xF4, 0x10⟩, 1, 1⟩, ⟨⟨0x42, 0xF4, 0x10⟩, 1, 0x10001⟩, .inr (by decide), .inr (by decide), by decide,
    by decide⟩

namespace ENBRegistry

variable {w v : ENBRegistry} {a : Nat} {s : ENBAssoc}

/-! ## The table and the associations -/

/-- Every association in S1_Active is in the table under its identifier. -/
def Complete (w : ENBRegistry) : Prop :=
  ∀ a s, w.assocs a = some s → s.active = true → w.Lists s.globalENBID a

/-- The table leads from the identifier of every association in S1_Active to it, and has no other entries. -/
structure Exact (w : ENBRegistry) : Prop where
  lookup : ∀ a s, w.assocs a = some s → s.active = true →
    w.s1ByGeNBid.lookup globaleNBIDHash w.idKey s.globalENBID = .ok (some a)
  only : ∀ e ∈ w.s1ByGeNBid, ∃ s, w.assocs e.value = some s ∧ s.active = true ∧ w.idKey e.key = .ok s.globalENBID

theorem Registered.exact_iff (hw : w.Registered) : w.Exact ↔ w.Complete := by
  constructor
  · exact fun h a s hs hactive => (PtrTable.lookup_eq_some_iff hw.sound).mp (h.lookup a s hs hactive)
  · refine fun h => ⟨fun a s hs hactive => (PtrTable.lookup_eq_some_iff hw.sound).mpr (h a s hs hactive), fun e he => ?_⟩
    obtain ⟨s, hs, hactive, -, hid⟩ := hw.under e he
    exact ⟨s, hs, hactive, hid⟩

/-- Another association in S1_Active has the identifier. -/
def Taken (w : ENBRegistry) (a : Nat) (k : MMEGlobaleNBid) : Prop :=
  ∃ b s, b ≠ a ∧ w.assocs b = some s ∧ s.active = true ∧ s.globalENBID = k

/-- An event that registers or ends an association whose identifier is taken. -/
def Collides (w : ENBRegistry) : ENBEvent → Prop
  | .accept => False
  | .s1ap a m _ => (∃ s, w.assocs a = some s ∧ s.active = false) ∧ ¬ m.Ignored ∧ m.supportedTAs.isSome = true ∧
      ∃ gid, m.globalENBID = some gid ∧ w.Taken a (globaleNBIDFill gid)
  | .closed a => ∃ s, w.assocs a = some s ∧ w.Taken a s.globalENBID

/-- What is left of a complete table when the association `a` leaves S1_Active or is not in it. -/
theorem complete_iff_of_removed {o : Option ENBAssoc} {k : MMEGlobaleNBid} (hx : w.Complete)
    (hv : v.assocs = Function.update w.assocs a o) (ho : ∀ s, o = some s → s.active = false)
    (hnone : ∀ b, ¬ v.Lists k b) (hspares : w.Spares v k) : v.Complete ↔ ¬ w.Taken a k := by
  constructor
  · rintro hv' ⟨b, s, hba, hs, hactive, rfl⟩
    exact hnone b (hv' b s (by rw [hv, Function.update_of_ne hba, hs]) hactive)
  · intro hfree b s hs hactive
    have hba : b ≠ a := by
      rintro rfl
      rw [hv, Function.update_self] at hs
      rw [ho s hs] at hactive
      cases hactive
    rw [hv, Function.update_of_ne hba] at hs
    exact hspares _ _ (fun hk => hfree ⟨b, s, hba, hs, hactive, hk⟩) (hx b s hs hactive)

/-- One key does not lead to two associations. -/
theorem Registered.eq_of_lists (hw : w.Registered) {k : MMEGlobaleNBid} {b : Nat} (ha : w.Lists k a)
    (hb : w.Lists k b) : a = b := by
  have ha := (PtrTable.lookup_eq_some_iff hw.sound).mpr ha
  have hb := (PtrTable.lookup_eq_some_iff hw.sound).mpr hb
  exact Option.some.inj (Except.ok.inj (ha.symm.trans hb))

theorem complete_iff_of_added (hv : v.Registered) (hx : w.Complete)
    (hassocs : v.assocs = Function.update w.assocs a (some s)) (hself : v.Lists s.globalENBID a)
    (hspares : w.Spares v s.globalENBID) : v.Complete ↔ ¬ w.Taken a s.globalENBID := by
  constructor
  · rintro hv' ⟨b, s', hba, hs', hactive, hk⟩
    refine hba (hv.eq_of_lists (hv' b s' ?_ hactive) (hk ▸ hself))
    rw [hassocs, Function.update_of_ne hba, hs']
  · intro hfree b s' hs' hactive
    by_cases hba : b = a
    · rw [hassocs, hba, Function.update_self, Option.some.injEq] at hs'
      rw [hba, ← hs']
      exact hself
    · rw [hassocs, Function.update_of_ne hba] at hs'
      exact hspares _ _ (fun hk => hfree ⟨b, s', hba, hs', hactive, hk⟩) (hx b s' hs' hactive)

/-- An association that is not in S1_Active can be written without harm. -/
theorem Complete.setAssoc (hx : w.Complete) (hw : w.Registered) (ha : ¬ w.Active a) (hn : s.active = false) :
    (w.setAssoc a s).Complete := by
  intro b t ht hactive
  have hba : b ≠ a := by
    rintro rfl
    exact not_active assocs_setAssoc_self hn ⟨t, ht, hactive⟩
  rw [assocs_setAssoc_of_ne hba] at ht
  exact (hw.lists_setAssoc ha).mpr (hx b t ht hactive)

theorem complete_notConfigured_iff (hw : w.Registered) (hx : w.Complete) {m : S1SetupMsg} {rSid : Nat}
    (hs : w.assocs a = some s) (hn : s.active = false) (h : w.step (.s1ap a m rSid) = .ok v) :
    v.Complete ↔ ¬ w.Collides (.s1ap a m rSid) := by
  by_cases hm : m.Ignored
  · rw [step_ignored hs hn hm, Except.ok.injEq] at h
    subst h
    exact iff_of_true (hx.setAssoc hw (not_active hs hn) hn) fun hc => hc.2.1 hm
  rcases hgid : m.globalENBID with _ | gid
  · rw [step_noGlobalENBID hs hn hm hgid] at h
    cases h
  rcases htas : m.supportedTAs with _ | tas
  · rw [step_noSupportedTAs hs hn hm hgid htas, Except.ok.injEq] at h
    subst h
    refine iff_of_true (hx.setAssoc hw (not_active hs hn) hn) ?_
    rintro ⟨-, -, htas', -⟩
    simp [htas] at htas'
  have hcollides : w.Collides (.s1ap a m rSid) ↔ w.Taken a (globaleNBIDFill gid) := by
    simp [Collides, hs, hn, hm, hgid, htas]
  rw [hcollides]
  rcases hserved : w.mmeContainsSupportedTAs tas with _ | _
  · obtain ⟨v', hv', hreg, hassocs, -, hnone, hspares⟩ := step_rejected hs hn rSid hw hm hgid htas hserved
    cases h.symm.trans hv'
    exact complete_iff_of_removed hx hassocs nofun hnone hspares
  · obtain ⟨v', hv', hreg, hassocs, -, hself, hspares⟩ := step_served hs hn rSid hw hm hgid htas hserved
    cases h.symm.trans hv'
    exact complete_iff_of_added hreg hx hassocs hself hspares

/-- One event: the table stays complete if and only if it does not collide. -/
theorem complete_step_iff (hw : w.Registered) (hx : w.Complete) {e : ENBEvent} (h : w.step e = .ok v) :
    v.Complete ↔ ¬ w.Collides e := by
  cases e with
  | accept =>
    rw [step, Except.ok.injEq] at h
    subst h
    exact iff_of_true (hx.setAssoc hw hw.not_active_fresh rfl) id
  | s1ap a m rSid =>
    obtain ⟨s, hderef, -⟩ := bind_eq_ok.mp h
    obtain ⟨_, ⟨⟩, hs⟩ := deref_eq_ok.mp hderef
    rcases hn : s.active with _ | _
    · exact complete_notConfigured_iff hw hx hs hn h
    · obtain rfl : w = v := by simpa [step, hderef, hn] using h
      refine iff_of_true hx ?_
      rintro ⟨⟨s', hs', hn'⟩, -⟩
      simp_all
  | closed a =>
    obtain ⟨w', hw', -⟩ := bind_eq_ok.mp h
    obtain ⟨k, hk, -⟩ := bind_eq_ok.mp hw'
    obtain ⟨s, hs, -⟩ := idKey_eq_ok.mp hk
    obtain ⟨v', hv', hreg, hassocs, -, hnone, hspares⟩ := disconnect_of_sound hw.fresh (hw.justRegistered s) hs
    cases h.symm.trans hv'
    rw [complete_iff_of_removed hx hassocs (fun _ hs => by cases hs) hnone hspares]
    simp [Collides, hs]

/-- **The registry of the eNodeBs.** For every sequence of accepts, messages and connection losses: the table is
right after each of them if and only if none registers or ends an association whose identifier another association
in S1_Active has. -/
theorem registry_exact_iff (served : List (List PLMN)) (es : List ENBEvent) (w : ENBRegistry) :
    Run step (fun w e => ∀ v, w.step e = .ok v → v.Exact) (init served) es w ↔
      Run step (fun w e => ¬ w.Collides e) (init served) es w := by
  refine Run.congr (I := fun w => w.Registered ∧ w.Complete) ⟨.init served, nofun⟩ ?_ ?_
  · intro w e v hw hq h
    have hv := (moves_step hw.1 h).registered
    exact ⟨hv, hv.exact_iff.mp (hq v h)⟩
  · intro w e v hw h
    have hv := (moves_step hw.1 h).registered
    rw [← complete_step_iff hw.1 hw.2 h, ← hv.exact_iff]
    constructor
    · exact fun hq => hq v h
    · rintro hx v' hv'
      rwa [Except.ok.inj (hv'.symm.trans h)]

/-- An eNodeB connects again before its old connection is closed: when that happens the new one is lost. -/
theorem not_registry_exact : ∃ w, Run step (fun _ _ => True) (init [[samplePLMN]])
    [.accept, .s1ap 0 (sampleSetup .initiatingMessage) 0, .accept, .s1ap 1 (sampleSetup .initiatingMessage) 0,
      .closed 0] w ∧ w.s1ByGeNBid = [] ∧ w.Active 1 ∧ ¬ w.Exact := by
  refine Run.exists_of_exec (fun w => w.s1ByGeNBid = [] ∧ (w.assocs 1).map ENBAssoc.active = some true)
    (by decide +kernel) ?_
  rintro w - ⟨hempty, hactive⟩
  obtain ⟨s, hs, hactive⟩ := Option.map_eq_some_iff.mp hactive
  refine ⟨hempty, ⟨s, hs, hactive⟩, fun hx => ?_⟩
  have hlookup := hx.lookup 1 s hs hactive
  rw [hempty] at hlookup
  cases hlookup

end ENBRegistry

end AaltoMME
