import AaltoMME.Base.Index
import AaltoMME.S1.Assoc

/-!
# The ECM sessions and their tables

An ECM session is in the table of the MME under the identifier that the MME chose, and in the table of its
association under the identifier that the eNodeB chose.  `Filed` says that each table is the index of its
sessions.  While all sessions of an association are closed, its own table is out of order, so `Filed` may leave
it out; a session that is entered in the table of an association is `Pending` before.
-/

namespace AaltoMME

open Base NAS PtrTable

/-! ## Identifiers -/

/-- What the tables depend on in a session. -/
structure SessionIds where
  assoc : Nat
  mmeUEId : UInt32
  eNBUEId : UInt32
  deriving DecidableEq, Repr

def ECMSession.ids (s : ECMSession) : SessionIds := ⟨s.assoc, s.mmeUEId, s.eNBUEId⟩

/-! ## Contexts that are stopped -/

namespace EMMCtx

variable {c d e : EMMCtx} {env : Env}

/-- What was done to the context asks for no registration. -/
def Unregistered (c d : EMMCtx) : Prop :=
  ∃ acts, d.trace = acts ++ c.trace ∧ ∀ a ∈ acts, ∀ e m, a ≠ .registerEMMCtxt e m

theorem Unregistered.refl (c : EMMCtx) : c.Unregistered c := ⟨[], rfl, nofun⟩

theorem Unregistered.trans (h : c.Unregistered d) (h' : d.Unregistered e) : c.Unregistered e := by
  obtain ⟨l, hl, hacts⟩ := h
  obtain ⟨l', hl', hacts'⟩ := h'
  refine ⟨l' ++ l, by rw [hl', hl, List.append_assoc], fun a ha => ?_⟩
  rcases List.mem_append.mp ha with ha | ha
  · exact hacts' a ha
  · exact hacts a ha

theorem unregistered_s11Request (u : S11User) (req : S11Request) :
    Post (c.s11Request env u req) fun q => c.Unregistered q.1 := by
  refine .of_bind fun ⟨s, u, seq⟩ => .bind ?_ fun d hd => .ok hd
  refine .ite (fun _ => .ok ⟨[_], rfl, ?_⟩) fun _ => .error
  rintro _ ha e m rfl
  cases List.mem_singleton.mp ha

theorem unregistered_s11Operation (p : Option Nat) (cb : Option S11Cb) (from? : S11State → Bool)
    {send : EMMCtx → S11User → Outcome (EMMCtx × S11User)} (next : S11State)
    (h : ∀ u, Post (send c u) fun q => c.Unregistered q.1) :
    Post (s11Operation c p cb from? send next) c.Unregistered := by
  refine .of_bind fun u => .ite (fun _ => ?_) fun _ => .ok (.refl c)
  exact (h _).bind fun q hq => .ok hq

theorem unregistered_s11Detach (p : Option Nat) (cb : Option S11Cb) :
    Post (c.s11Detach env p cb) c.Unregistered :=
  unregistered_s11Operation _ _ _ _ fun u => unregistered_s11Request u _

theorem unregistered_s11ReleaseAccessBearers (p : Option Nat) (cb : Option S11Cb) :
    Post (c.s11ReleaseAccessBearers env p cb) c.Unregistered :=
  unregistered_s11Operation _ _ _ _ fun u => unregistered_s11Request u _

theorem unregistered_emmStop : Post (c.emmStop env) c.Unregistered := by
  refine .bind ?_ fun d hd => .ok hd
  refine .bind (.foldlM (I := c.Unregistered) (fun d id hd => ?_) _ (.refl c)) fun d hd => .ok hd
  exact .of_bind fun s => (unregistered_s11Detach _ _).mono fun _ he => hd.trans he

end EMMCtx

namespace MME

variable {P : Prims} {x : Env} {w v u : MME} {a id i k : Nat} {s s' : ECMSession} {t : S1Assoc} {n : SessionIds}
  {X : Nat → Prop}

theorem mmeUEIdKey_eq_ok {m : UInt32} : w.mmeUEIdKey k = .ok m ↔ ∃ s, w.ecms k = some s ∧ s.mmeUEId = m := by
  simp [mmeUEIdKey, bind_eq_ok]

theorem eNBUEIdKey_eq_ok {m : UInt32} : w.eNBUEIdKey k = .ok m ↔ ∃ s, w.ecms k = some s ∧ s.eNBUEId = m := by
  simp [eNBUEIdKey, bind_eq_ok]

theorem mmeUEIdKey_congr (h : v.ecms k = w.ecms k) : v.mmeUEIdKey k = w.mmeUEIdKey k := by
  simp only [mmeUEIdKey, deref, h]

theorem ecms_setECM_self : (w.setECM id s).ecms id = some s := Function.update_self ..

theorem ecms_setECM_of_ne (h : k ≠ id) : (w.setECM id s).ecms k = w.ecms k := Function.update_of_ne h ..

/-- Nothing changed in what the tables depend on. -/
structure SameTables (w v : MME) : Prop where
  ecms : v.ecms = w.ecms
  assocs : v.assocs = w.assocs
  byLocalID : v.ecmSessionsByLocalID = w.ecmSessionsByLocalID
  localIDs : v.s1LocalIDs = w.s1LocalIDs
  fresh : v.fresh = w.fresh

/-- The loop of `mme_newLocalUEid` finds an identifier that is not in use if there is one. -/
theorem firstFree_spec {ids : List UInt32} {j : UInt32} (hj : j ∉ ids) (n : Nat) (i : UInt32)
    (hij : i.toNat ≤ j.toNat) (hjn : j.toNat < i.toNat + n) :
    firstFree ids n i ∉ ids ∧ i.toNat ≤ (firstFree ids n i).toNat ∧ (firstFree ids n i).toNat < i.toNat + n := by
  induction n generalizing i with
  | zero => omega
  | succ n ih =>
    rw [firstFree]
    split
    · rename_i hi
      have hne : i.toNat ≠ j.toNat := fun h => hj (UInt32.toNat_inj.mp h ▸ hi)
      have hlt : j.toNat < 2 ^ 32 := j.toNat_lt
      have hsucc : (i + 1).toNat = i.toNat + 1 := by
        rw [UInt32.toNat_add]
        exact Nat.mod_eq_of_lt (by simp only [UInt32.reduceToNat]; omega)
      obtain ⟨hmem, hle, hlt⟩ := ih (i + 1) (by omega) (by omega)
      exact ⟨hmem, by omega, by omega⟩
    · rename_i hi
      exact ⟨hi, Nat.le_refl _, by omega⟩

/-- The identifiers of the live sessions. -/
def ids (w : MME) (i : Nat) : Option SessionIds := (w.ecms i).map ECMSession.ids

/-- The session belongs to the association. -/
def Of (w : MME) (a i : Nat) : Prop := ∃ n, w.ids i = some n ∧ n.assoc = a

theorem ids_eq_some : w.ids i = some n ↔ ∃ s, w.ecms i = some s ∧ s.ids = n := Option.map_eq_some_iff

theorem ids_of_ecms (h : w.ecms i = some s) : w.ids i = some s.ids := by
  rw [ids, h]
  rfl

theorem mmeUEIdKey_of_ids (h : w.ids i = some n) : w.mmeUEIdKey i = .ok n.mmeUEId := by
  obtain ⟨s, hs, rfl⟩ := ids_eq_some.mp h
  exact mmeUEIdKey_eq_ok.mpr ⟨s, hs, rfl⟩

theorem eNBUEIdKey_of_ids (h : w.ids i = some n) : w.eNBUEIdKey i = .ok n.eNBUEId := by
  obtain ⟨s, hs, rfl⟩ := ids_eq_some.mp h
  exact eNBUEIdKey_eq_ok.mpr ⟨s, hs, rfl⟩

theorem mmeUEIdKey_eq_iff (h : w.ids i = some n) {m : UInt32} : w.mmeUEIdKey i = .ok m ↔ n.mmeUEId = m := by
  rw [mmeUEIdKey_of_ids h, Except.ok.injEq]

theorem eNBUEIdKey_eq_iff (h : w.ids i = some n) {m : UInt32} : w.eNBUEIdKey i = .ok m ↔ n.eNBUEId = m := by
  rw [eNBUEIdKey_of_ids h, Except.ok.injEq]

theorem mmeUEIdKey_congr_ids (h : v.ids i = w.ids i) (hi : (w.ids i).isSome) : v.mmeUEIdKey i = w.mmeUEIdKey i := by
  obtain ⟨n, hn⟩ := Option.isSome_iff_exists.mp hi
  rw [mmeUEIdKey_of_ids hn, mmeUEIdKey_of_ids (h.trans hn)]

theorem eNBUEIdKey_congr_ids (h : v.ids i = w.ids i) (hi : (w.ids i).isSome) : v.eNBUEIdKey i = w.eNBUEIdKey i := by
  obtain ⟨n, hn⟩ := Option.isSome_iff_exists.mp hi
  rw [eNBUEIdKey_of_ids hn, eNBUEIdKey_of_ids (h.trans hn)]

theorem ids_setECM : (w.setECM id s).ids = Function.update w.ids id (some s.ids) := by
  funext i
  by_cases hi : i = id
  · rw [hi, Function.update_self, ids_of_ecms ecms_setECM_self]
  · rw [Function.update_of_ne hi, ids, ecms_setECM_of_ne hi]
    rfl

theorem Of.isSome (h : w.Of a i) : (w.ids i).isSome := by
  obtain ⟨n, hn, -⟩ := h
  rw [hn]
  rfl

/-! ## Sessions in order -/

/-- Each table is the index of its sessions; those of the associations in `X` are left out. -/
structure Filed (X : Nat → Prop) (w : MME) : Prop where
  freshECM : ∀ i, w.fresh ≤ i → w.ids i = none
  freshAssoc : ∀ a, w.fresh ≤ a → w.assocs a = none
  nodup : w.s1LocalIDs.Nodup
  range : ∀ m ∈ w.s1LocalIDs, 0 < m.toNat ∧ m.toNat ≤ maxUE
  recorded : ∀ i n, w.ids i = some n → n.mmeUEId = 0 ∨ n.mmeUEId ∈ w.s1LocalIDs
  byLocalID : Indexes gIntHash w.mmeUEIdKey (fun i => (w.ids i).isSome) w.ecmSessionsByLocalID
  byENBUEId : ∀ a t, w.assocs a = some t → ¬ X a → Indexes gIntHash w.eNBUEIdKey (w.Of a) t.ecmSessions
  assoc : ∀ i n, w.ids i = some n → (w.assocs n.assoc).isSome

/-- No table is left out. -/
abbrev AllFiled (w : MME) : Prop := w.Filed fun _ => False

theorem init_filed (r : UInt8) : (MME.init r).AllFiled where
  freshECM _ _ := rfl
  freshAssoc _ _ := rfl
  nodup := List.nodup_nil
  range := nofun
  recorded := nofun
  byLocalID := .nil fun i => by simp [ids, init]
  byENBUEId := nofun
  assoc := nofun

theorem Filed.mono {Y : Nat → Prop} (h : w.Filed X) (hXY : ∀ a, X a → Y a) : w.Filed Y where
  freshECM := h.freshECM
  freshAssoc := h.freshAssoc
  nodup := h.nodup
  range := h.range
  recorded := h.recorded
  byLocalID := h.byLocalID
  byENBUEId b t ht hb := h.byENBUEId b t ht fun hX => hb (hXY b hX)
  assoc := h.assoc

theorem Filed.lt_fresh (h : w.Filed X) (hs : w.ecms i = some s) : i < w.fresh := by
  by_contra hle
  have hnone := h.freshECM i (Nat.le_of_not_lt hle)
  rw [ids_of_ecms hs] at hnone
  cases hnone

theorem Filed.lookupECM (h : w.Filed X) (m : UInt32) :
    w.mmeLookupECM m = .ok none ∨ ∃ id s, w.ecms id = some s ∧ s.mmeUEId = m ∧ w.mmeLookupECM m = .ok (some id) := by
  refine (h.byLocalID.lookup_cases m).imp_right ?_
  rintro ⟨id, hlive, hk, hlookup⟩
  obtain ⟨s, hs, hm⟩ := mmeUEIdKey_eq_ok.mp hk
  exact ⟨id, s, hs, hm, hlookup⟩

theorem Filed.getECMSession (h : w.AllFiled) (ht : w.assocs a = some t) (j : UInt32) :
    w.s1AssocGetECMSession a j = .ok none ∨
      ∃ id s, w.ecms id = some s ∧ s.assoc = a ∧ s.eNBUEId = j ∧ w.s1AssocGetECMSession a j = .ok (some id) := by
  rw [s1AssocGetECMSession, deref_eq_ok.mpr ⟨a, rfl, ht⟩]
  refine ((h.byENBUEId a t ht not_false).lookup_cases j).imp_right ?_
  rintro ⟨id, ⟨n, hn, ha⟩, hk, hlookup⟩
  obtain ⟨s, hs, rfl⟩ := ids_eq_some.mp hn
  exact ⟨id, s, hs, ha, (eNBUEIdKey_eq_iff hn).mp hk, hlookup⟩

/-- Nothing that the tables depend on is different. -/
structure SameFiles (w v : MME) : Prop where
  ids : v.ids = w.ids
  assocs : v.assocs = w.assocs
  byLocalID : v.ecmSessionsByLocalID = w.ecmSessionsByLocalID
  localIDs : v.s1LocalIDs = w.s1LocalIDs
  fresh : w.fresh ≤ v.fresh

namespace SameFiles

theorem trans (h : w.SameFiles v) (h' : v.SameFiles u) : w.SameFiles u :=
  ⟨h'.ids.trans h.ids, h'.assocs.trans h.assocs, h'.byLocalID.trans h.byLocalID, h'.localIDs.trans h.localIDs,
    Nat.le_trans h.fresh h'.fresh⟩

theorem setECM (h : w.ids id = some s.ids) : w.SameFiles (w.setECM id s) := by
  refine ⟨?_, rfl, rfl, rfl, Nat.le_refl _⟩
  rw [ids_setECM, ← h, Function.update_eq_self]

theorem of_iff (h : w.SameFiles v) (i : Nat) : v.Of a i ↔ w.Of a i := by
  simp only [Of, h.ids]

theorem filed (h : w.SameFiles v) (hw : w.Filed X) : v.Filed X where
  freshECM i hi := by
    rw [h.ids]
    exact hw.freshECM i (Nat.le_trans h.fresh hi)
  freshAssoc a ha := by
    rw [h.assocs]
    exact hw.freshAssoc a (Nat.le_trans h.fresh ha)
  nodup := h.localIDs ▸ hw.nodup
  range := h.localIDs ▸ hw.range
  recorded := by
    rw [h.ids, h.localIDs]
    exact hw.recorded
  byLocalID := by
    rw [h.byLocalID]
    exact hw.byLocalID.congr (fun i => by rw [h.ids]) fun i hi => mmeUEIdKey_congr_ids (congrFun h.ids i) hi
  byENBUEId a t ht hX := by
    rw [h.assocs] at ht
    exact (hw.byENBUEId a t ht hX).congr h.of_iff fun i hi => eNBUEIdKey_congr_ids (congrFun h.ids i) hi.isSome
  assoc := by
    rw [h.ids, h.assocs]
    exact hw.assoc

end SameFiles

theorem Filed.setECM (h : w.Filed X) (hs : w.ecms id = some s) (hids : s'.ids = s.ids) : (w.setECM id s').Filed X :=
  (SameFiles.setECM ((ids_of_ecms hs).trans (congrArg some hids.symm))).filed h

/-! ## The operations of a context -/

theorem sameTables_register (acts : List Act) : Post (w.register acts) w.SameTables := by
  refine .foldlM (I := w.SameTables) (fun v a hv => ?_) _ ⟨rfl, rfl, rfl, rfl, rfl⟩
  split
  · refine .of_bind fun k => .of_bind fun ⟨t, old⟩ => ?_
    cases old with
    | none => exact .ok ⟨hv.ecms, hv.assocs, hv.byLocalID, hv.localIDs, hv.fresh⟩
    | some o => exact .of_bind fun _ => .ok ⟨hv.ecms, hv.assocs, hv.byLocalID, hv.localIDs, hv.fresh⟩
  · exact .ok hv

theorem sameTables_onEMM (p : Option Nat) (f : Env → EMMCtx → Outcome EMMCtx) :
    Post (w.onEMM x p f) w.SameTables := by
  unfold onEMM
  split
  · exact .error
  · refine .of_bind fun c => .of_bind fun d => (sameTables_register _).mono fun v hv => ?_
    exact ⟨hv.ecms, hv.assocs, hv.byLocalID, hv.localIDs, hv.fresh⟩

theorem SameTables.files (h : w.SameTables v) : w.SameFiles v where
  ids := by
    unfold MME.ids
    rw [h.ecms]
  assocs := h.assocs
  byLocalID := h.byLocalID
  localIDs := h.localIDs
  fresh := Nat.le_of_eq h.fresh.symm

theorem sameFiles_onEMM (p : Option Nat) (f : Env → EMMCtx → Outcome EMMCtx) :
    Post (w.onEMM x p f) w.SameFiles := (sameTables_onEMM p f).mono fun _ => SameTables.files

theorem post_ecmSessionReset (hs : w.ecms id = some s) :
    Post (w.ecmSessionReset x id) fun v => w.SameTables v ∧ ∀ e, s.emm ≠ some e → v.emms e = w.emms e := by
  refine Post.and (.of_bind fun _ => sameTables_onEMM _ _) (.bind_of_eq fun s' hs' => ?_)
  obtain ⟨_, ⟨⟩, hs'⟩ := deref_eq_ok.mp hs'
  cases hs.symm.trans hs'
  rcases hemm : s.emm with _ | e
  · exact .error
  rcases hc : w.emms e with _ | c
  · simp [onEMM, deref, hc]
  refine (post_onEMM hc (EMMCtx.unregistered_emmStop.mono fun d hd => ⟨trivial, hd⟩)).mono ?_
  rintro _ ⟨d, -, rfl⟩ e' he'
  refine Function.update_of_ne ?_ ..
  rintro rfl
  exact he' rfl

/-! ## The end of a session -/

/-- The session is freed, and its context released. -/
structure Closes (w : MME) (id : Nat) (s : ECMSession) (v : MME) : Prop where
  ecms : v.ecms = Function.update w.ecms id none
  assocs : v.assocs = w.assocs
  localIDs : v.s1LocalIDs = w.s1LocalIDs.erase s.mmeUEId
  fresh : v.fresh = w.fresh
  emms : ∀ e, s.emm ≠ some e → v.emms e = w.emms e

namespace Closes

theorem ids (h : w.Closes id s v) : v.ids = Function.update w.ids id none := by
  funext i
  by_cases hi : i = id
  · rw [hi, Function.update_self, MME.ids, h.ecms, Function.update_self]
    rfl
  · rw [Function.update_of_ne hi, MME.ids, h.ecms, Function.update_of_ne hi]
    rfl

theorem ids_of_ne (h : w.Closes id s v) (hi : i ≠ id) : v.ids i = w.ids i := by
  rw [h.ids, Function.update_of_ne hi]

theorem ids_iff (h : w.Closes id s v) : v.ids i = some n ↔ i ≠ id ∧ w.ids i = some n := by
  by_cases hi : i = id
  · simp [h.ids, hi]
  · simp [h.ids_of_ne hi, hi]

theorem of_iff (h : w.Closes id s v) : v.Of a i ↔ i ≠ id ∧ w.Of a i := by
  simp only [Of, h.ids_iff, and_assoc, exists_and_left]

end Closes

theorem Filed.closes (h : w.Filed X) (hs : w.ecms id = some s) (hX : X s.assoc) (hv : w.Closes id s v)
    (hindex : Indexes gIntHash w.mmeUEIdKey (fun i => i ≠ id ∧ (w.ids i).isSome) v.ecmSessionsByLocalID) :
    v.Filed X where
  freshECM i hi := by
    by_contra hne
    obtain ⟨n, hn⟩ := Option.ne_none_iff_exists'.mp hne
    have hold := h.freshECM i (hv.fresh ▸ hi)
    rw [(hv.ids_iff.mp hn).2] at hold
    cases hold
  freshAssoc b hb := by
    rw [hv.assocs]
    exact h.freshAssoc b (hv.fresh ▸ hb)
  nodup := by
    rw [hv.localIDs]
    exact h.nodup.erase _
  range m hm := by
    rw [hv.localIDs] at hm
    exact h.range m (List.mem_of_mem_erase hm)
  recorded i n hn := by
    obtain ⟨hi, hn⟩ := hv.ids_iff.mp hn
    refine (h.recorded i n hn).imp_right fun hmem => ?_
    rw [hv.localIDs]
    refine (List.mem_erase_of_ne fun heq => hi ?_).mpr hmem
    -- two sessions with one identifier
    have hself := mmeUEIdKey_of_ids (ids_of_ecms hs)
    refine h.byLocalID.eq_of_read ?_ ?_ ((mmeUEIdKey_eq_iff hn).mpr heq) hself
    · rw [hn]
      rfl
    · rw [ids_of_ecms hs]
      rfl
  byLocalID := by
    refine hindex.congr (fun i => ?_) fun i hi => mmeUEIdKey_congr_ids (hv.ids_of_ne hi.1) hi.2
    rw [hv.ids]
    by_cases hi : i = id <;> simp [hi]
  byENBUEId b t ht hb := by
    rw [hv.assocs] at ht
    have hother : ∀ i, w.Of b i → i ≠ id := by
      rintro i ⟨n, hn, rfl⟩ rfl
      cases (ids_of_ecms hs).symm.trans hn
      exact hb hX
    refine (h.byENBUEId b t ht hb).congr (fun i => ?_) fun i hi =>
      eNBUEIdKey_congr_ids (hv.ids_of_ne (hother i hi)) hi.isSome
    exact hv.of_iff.trans ⟨And.right, fun hi => ⟨hother i hi, hi⟩⟩
  assoc i n hn := by
    rw [hv.assocs]
    exact h.assoc i n (hv.ids_iff.mp hn).2

/-- `mme_deregisterECM` for a session that the table of its association need not have. -/
theorem filed_mmeDeregisterECM (h : w.Filed X) (hs : w.ecms id = some s) (hX : X s.assoc) :
    Post (w.mmeDeregisterECM id) fun v => v.Filed X ∧ w.Closes id s v := by
  have hk := mmeUEIdKey_of_ids (ids_of_ecms hs)
  have hlive : (w.ids id).isSome := by
    rw [ids_of_ecms hs]
    rfl
  obtain ⟨t, hremove, hindex⟩ := h.byLocalID.remove_eq hlive hk
  rw [mmeDeregisterECM, hk, ok_bind, hremove, ok_bind]
  refine .bind_of_eq fun s' hs' => ?_
  obtain ⟨_, ⟨⟩, hs'⟩ := deref_eq_ok.mp hs'
  cases hs.symm.trans hs'
  rcases hemm : s.emm with _ | e
  · exact .error
  refine .of_bind fun c => .of_bind fun _ => .ok ?_
  have hcloses : w.Closes id s { (({ w with ecmSessionsByLocalID := t } : MME).setEMM e c.emmDeregister).mmeFreeLocalUEid
      s.mmeUEId with ecms := Function.update w.ecms id none } := by
    refine ⟨rfl, rfl, rfl, rfl, fun e' he' => Function.update_of_ne ?_ ..⟩
    rintro rfl
    exact he' hemm
  exact ⟨h.closes hs hX hcloses hindex, hcloses⟩

theorem filed_s1AssocResetECM (h : w.Filed X) (hs : w.ecms id = some s) (hX : X s.assoc) :
    Post (w.s1AssocResetECM x id) fun v => v.Filed X ∧ w.Closes id s v := by
  refine .bind (post_ecmSessionReset hs) fun v ⟨hv, hemms⟩ => ?_
  refine (filed_mmeDeregisterECM (hv.files.filed h) ((congrFun hv.ecms id).trans hs) hX).mono ?_
  rintro u ⟨hu, hcloses⟩
  refine ⟨hu, ?_, hcloses.assocs.trans hv.assocs, ?_, hcloses.fresh.trans hv.fresh, fun e he => ?_⟩
  · rw [hcloses.ecms, hv.ecms]
  · rw [hcloses.localIDs, hv.localIDs]
  · exact (hcloses.emms e he).trans (hemms e he)

/-! ## The end of all sessions of an association -/

/-- The sessions in the list are gone. -/
structure Clears (w : MME) (l : List Nat) (v : MME) : Prop where
  ecms : ∀ i, v.ecms i = if i ∈ l then none else w.ecms i
  assocs : v.assocs = w.assocs
  localIDs : ∀ m, m ∈ v.s1LocalIDs ↔ m ∈ w.s1LocalIDs ∧ ∀ i ∈ l, ∀ s, w.ecms i = some s → s.mmeUEId ≠ m
  fresh : v.fresh = w.fresh
  emms : ∀ e, (∀ i ∈ l, ∀ s, w.ecms i = some s → s.emm ≠ some e) → v.emms e = w.emms e

theorem clears_nil : w.Clears [] w where
  ecms i := by simp
  assocs := rfl
  localIDs m := by simp
  fresh := rfl
  emms _ _ := rfl

theorem Closes.clears {l : List Nat} (hv : w.Closes id s v) (hs : w.ecms id = some s) (hid : id ∉ l)
    (hnodup : w.s1LocalIDs.Nodup) (hu : v.Clears l u) : w.Clears (id :: l) u := by
  have hother : ∀ i ∈ l, v.ecms i = w.ecms i := by
    intro i hi
    rw [hv.ecms, Function.update_of_ne]
    rintro rfl
    exact hid hi
  -- what is said about the sessions of the list, said about the first one and the others
  have hall : ∀ Q : ECMSession → Prop, (∀ i ∈ id :: l, ∀ s, w.ecms i = some s → Q s) ↔
      Q s ∧ ∀ i ∈ l, ∀ s, v.ecms i = some s → Q s := by
    intro Q
    rw [List.forall_mem_cons]
    refine and_congr ⟨fun h => h s hs, fun h s' hs' => ?_⟩ ⟨fun h i hi r hr => ?_, fun h i hi r hr => ?_⟩
    · cases hs.symm.trans hs'
      exact h
    · exact h i hi r ((hother i hi).symm.trans hr)
    · exact h i hi r ((hother i hi).trans hr)
  refine ⟨fun i => ?_, hu.assocs.trans hv.assocs, fun m => ?_, hu.fresh.trans hv.fresh, fun e he => ?_⟩
  · rw [hu.ecms]
    by_cases hi : i = id
    · simp [hi, hv.ecms]
    · simp [hi, hv.ecms]
  · rw [hu.localIDs, hv.localIDs, hnodup.mem_erase_iff, hall, and_assoc, ← and_assoc, and_comm (a := m ≠ _), and_assoc,
      ne_comm]
  · obtain ⟨hse, hle⟩ := (hall _).mp he
    exact (hu.emms e hle).trans (hv.emms e hse)

theorem filed_foldlM {f : MME → Nat → Outcome MME}
    (hf : ∀ {w id s}, w.Filed (· = a) → w.ecms id = some s → s.assoc = a →
      Post (f w id) fun v => v.Filed (· = a) ∧ w.Closes id s v)
    (l : List Nat) (hl : l.Nodup) (h : w.Filed (· = a)) (hof : ∀ i ∈ l, w.Of a i) :
    Post (l.foldlM f w) fun v => v.Filed (· = a) ∧ w.Clears l v := by
  induction l generalizing w with
  | nil => exact .ok ⟨h, clears_nil⟩
  | cons id l ih =>
    obtain ⟨hid, hl⟩ := List.nodup_cons.mp hl
    obtain ⟨_, hn, rfl⟩ := hof id List.mem_cons_self
    obtain ⟨s, hs, rfl⟩ := ids_eq_some.mp hn
    refine .bind (hf h hs rfl) fun v ⟨hv, hcloses⟩ => ?_
    have hof' : ∀ i ∈ l, v.Of s.assoc i := by
      intro i hi
      refine hcloses.of_iff.mpr ⟨?_, hof i (List.mem_cons_of_mem _ hi)⟩
      rintro rfl
      exact hid hi
    exact (ih hl hv hof').mono fun u ⟨hu, hclears⟩ => ⟨hu, hcloses.clears hs hid h.nodup hclears⟩

theorem Filed.mem_order (h : w.AllFiled) (ht : w.assocs a = some t) (o : HashOrder) :
    (∀ i, i ∈ o (t.ecmSessions.map (·.value)) ↔ w.Of a i) ∧ (o (t.ecmSessions.map (·.value))).Nodup := by
  have hindex := h.byENBUEId a t ht not_false
  refine ⟨fun i => ?_, (o.perm _).nodup_iff.mpr ?_⟩
  · rw [o.mem_apply, List.mem_map, hindex.mem]
    exact exists_congr fun e => and_congr_right fun he => by rw [hindex.self e he]
  · refine List.Pairwise.map _ ?_ (hindex.sound.distinct.imp_of_mem ?_) (R := fun e f => e.value ≠ f.value)
    · exact fun _ _ => id
    · intro e f he hf hne heq
      rw [hindex.self e he, hindex.self f hf] at heq
      exact hne (congrArg _ heq)

/-- Only the table of `a` is left out, and no session belongs to `a`. -/
theorem Filed.drop (h : w.Filed (· = a)) (hnone : ∀ i, ¬ w.Of a i) (ha : a < w.fresh) {o : Option S1Assoc}
    (ho : ∀ t, o = some t → t.ecmSessions = []) :
    AllFiled { w with assocs := Function.update w.assocs a o } where
  freshECM := h.freshECM
  freshAssoc b hb := by
    have hne : b ≠ a := by
      rintro rfl
      exact absurd ha (Nat.not_lt.mpr hb)
    exact (Function.update_of_ne hne ..).trans (h.freshAssoc b hb)
  nodup := h.nodup
  range := h.range
  recorded := h.recorded
  byLocalID := h.byLocalID
  byENBUEId b t ht _ := by
    by_cases hb : b = a
    · subst hb
      have hself : Function.update w.assocs b o b = o := Function.update_self ..
      rw [ho t (hself.symm.trans ht)]
      exact .nil hnone
    · exact h.byENBUEId b t ((Function.update_of_ne hb ..).symm.trans ht) hb
  assoc i n hn := by
    have hne : n.assoc ≠ a := fun heq => hnone i ⟨n, hn, heq⟩
    show (Function.update w.assocs a o n.assoc).isSome
    rw [Function.update_of_ne hne]
    exact h.assoc i n hn

/-! ## A session leaves its association -/

/-- The session is gone, and its association does not have it. -/
structure Removes (w : MME) (id : Nat) (s : ECMSession) (v : MME) : Prop where
  ecms : v.ecms = Function.update w.ecms id none
  assoc : (v.assocs s.assoc).isSome
  assocs : ∀ b, b ≠ s.assoc → v.assocs b = w.assocs b
  localIDs : v.s1LocalIDs = w.s1LocalIDs.erase s.mmeUEId
  emms : ∀ e, s.emm ≠ some e → v.emms e = w.emms e

theorem assocs_setAssoc_self : (w.setAssoc a t).assocs a = some t := Function.update_self ..

theorem assocs_setAssoc_of_ne {b : Nat} (h : b ≠ a) : (w.setAssoc a t).assocs b = w.assocs b :=
  Function.update_of_ne h ..

theorem isSome_setAssoc (ha : (w.assocs a).isSome) (b : Nat) :
    ((w.setAssoc a t).assocs b).isSome = (w.assocs b).isSome := by
  by_cases hb : b = a
  · rw [hb, assocs_setAssoc_self, ha]
    rfl
  · rw [assocs_setAssoc_of_ne hb]

/-- `s1Assoc_deregisterECMSession` for the association of the session. -/
theorem s1AssocDeregisterECMSession_eq (h : w.AllFiled) (hn : w.ids id = some n) :
    ∃ t t', w.assocs n.assoc = some t ∧
      w.s1AssocDeregisterECMSession n.assoc id = .ok (w.setAssoc n.assoc { t with ecmSessions := t' }) ∧
      Indexes gIntHash w.eNBUEIdKey (fun i => i ≠ id ∧ w.Of n.assoc i) t' := by
  obtain ⟨t, ht⟩ := Option.isSome_iff_exists.mp (h.assoc id n hn)
  have hk := eNBUEIdKey_of_ids hn
  obtain ⟨t', hremove, hindex⟩ := (h.byENBUEId _ t ht not_false).remove_eq ⟨n, hn, rfl⟩ hk
  exact ⟨t, t', ht, by simp [s1AssocDeregisterECMSession, deref, ht, hk, hremove], hindex⟩

theorem Filed.setAssoc (h : w.AllFiled) (ha : (w.assocs a).isSome) : (w.setAssoc a t).Filed (· = a) where
  freshECM := h.freshECM
  freshAssoc b hb := by
    have hnone := h.freshAssoc b hb
    have hne : b ≠ a := by
      rintro rfl
      rw [hnone] at ha
      cases ha
    exact (assocs_setAssoc_of_ne hne).trans hnone
  nodup := h.nodup
  range := h.range
  recorded := h.recorded
  byLocalID := h.byLocalID
  byENBUEId b t' ht' hb := h.byENBUEId b t' ((assocs_setAssoc_of_ne hb).symm.trans ht') not_false
  assoc i n hn := by
    by_cases hna : n.assoc = a
    · rw [hna, assocs_setAssoc_self]
      rfl
    · rw [assocs_setAssoc_of_ne hna]
      exact h.assoc i n hn

theorem Filed.all (h : w.Filed (· = a)) (ha : ∀ t, w.assocs a = some t →
    Indexes gIntHash w.eNBUEIdKey (w.Of a) t.ecmSessions) : w.AllFiled where
  freshECM := h.freshECM
  freshAssoc := h.freshAssoc
  nodup := h.nodup
  range := h.range
  recorded := h.recorded
  byLocalID := h.byLocalID
  byENBUEId b t ht _ := by
    by_cases hb : b = a
    · subst hb
      exact ha t ht
    · exact h.byENBUEId b t ht hb
  assoc := h.assoc

/-- Closing a session that has left the table of its association. -/
theorem filed_remove {f : MME → Nat → Outcome MME}
    (hf : ∀ {w id s}, w.Filed (· = a) → w.ecms id = some s → s.assoc = a →
      Post (f w id) fun v => v.Filed (· = a) ∧ w.Closes id s v)
    (h : w.AllFiled) (hs : w.ecms id = some s) (ha : s.assoc = a) :
    Post (w.s1AssocDeregisterECMSession a id >>= fun v => f v id) fun v => v.AllFiled ∧ w.Removes id s v := by
  subst ha
  obtain ⟨t, t', ht, hremove, hindex⟩ := s1AssocDeregisterECMSession_eq h (ids_of_ecms hs)
  replace ht : w.assocs s.assoc = some t := ht
  rw [show w.s1AssocDeregisterECMSession s.assoc id = _ from hremove]
  have hfiled : (w.setAssoc s.assoc { t with ecmSessions := t' }).Filed (· = s.assoc) :=
    h.setAssoc (by rw [ht]; rfl)
  refine (hf hfiled hs rfl).mono ?_
  rintro v ⟨hv, hcloses⟩
  refine ⟨hv.all fun r hr => ?_, hcloses.ecms, ?_, fun b hb => ?_, hcloses.localIDs, hcloses.emms⟩
  · rw [hcloses.assocs, assocs_setAssoc_self] at hr
    cases hr
    refine hindex.congr (fun i => hcloses.of_iff) fun i hi => ?_
    exact eNBUEIdKey_congr_ids (hcloses.ids_of_ne hi.1) hi.2.isSome
  · rw [hcloses.assocs, assocs_setAssoc_self]
    rfl
  · rw [hcloses.assocs, assocs_setAssoc_of_ne hb]

/-! ## A session comes to an association -/

/-- The session is live but in the table of no association. -/
structure Pending (id : Nat) (n : SessionIds) (v : MME) : Prop where
  ids : v.ids id = some n
  assoc : (v.assocs n.assoc).isSome
  byENBUEId : ∀ b t, v.assocs b = some t → Indexes gIntHash v.eNBUEIdKey (fun i => i ≠ id ∧ v.Of b i) t.ecmSessions

theorem Pending.register (h : Pending id n v)
    (hnew : ∀ i m, i ≠ id → v.ids i = some m → m.assoc = n.assoc → m.eNBUEId ≠ n.eNBUEId) :
    ∃ t, v.s1AssocRegisterECMSession n.assoc id = .ok (v.setAssoc n.assoc t) ∧
      ∀ b r, (v.setAssoc n.assoc t).assocs b = some r → Indexes gIntHash v.eNBUEIdKey (v.Of b) r.ecmSessions := by
  obtain ⟨t, ht⟩ := Option.isSome_iff_exists.mp h.assoc
  have hk := eNBUEIdKey_of_ids h.ids
  have hne : ∀ i, i ≠ id ∧ v.Of n.assoc i → v.eNBUEIdKey i ≠ .ok n.eNBUEId := by
    rintro i ⟨hi, m, hm, hma⟩ hkey
    exact hnew i m hi hm hma ((eNBUEIdKey_eq_iff hm).mp hkey)
  obtain ⟨t', hinsert, hindex⟩ := (h.byENBUEId _ t ht).insert_new hk hne
  refine ⟨{ t with ecmSessions := t' }, by simp [s1AssocRegisterECMSession, deref, ht, hk, hinsert], fun b r hr => ?_⟩
  by_cases hb : b = n.assoc
  · subst hb
    cases assocs_setAssoc_self.symm.trans hr
    refine hindex.congr (fun i => ?_) fun _ _ => rfl
    by_cases hi : i = id
    · rw [hi]
      exact ⟨fun _ => .inl rfl, fun _ => ⟨n, h.ids, rfl⟩⟩
    · exact ⟨fun hof => .inr ⟨hi, hof⟩, fun hor => (hor.resolve_left hi).2⟩
  · rw [assocs_setAssoc_of_ne hb] at hr
    refine (h.byENBUEId b r hr).congr (fun i => ⟨fun hof => ⟨?_, hof⟩, And.right⟩) fun _ _ => rfl
    -- the session belongs to another association
    rintro rfl
    obtain ⟨m, hm, rfl⟩ := hof
    exact hb (congrArg SessionIds.assoc (Option.some.inj (hm.symm.trans h.ids)))

/-- The eNodeB uses the identifier for another session as well, whose entry the session takes. -/
theorem Pending.register_used (h : Pending id n v) {m : SessionIds} (hi : i ≠ id) (hm : v.ids i = some m)
    (hassoc : m.assoc = n.assoc) (henb : m.eNBUEId = n.eNBUEId) :
    ∃ (t : S1Assoc) (t' : PtrTable UInt32), v.s1AssocRegisterECMSession n.assoc id =
      .ok (v.setAssoc n.assoc { t with ecmSessions := ⟨gIntHash n.eNBUEId, i, id⟩ :: t' }) := by
  obtain ⟨t, ht⟩ := Option.isSome_iff_exists.mp h.assoc
  have hk := eNBUEIdKey_of_ids h.ids
  obtain ⟨t', hinsert⟩ := (h.byENBUEId _ t ht).insert_used ⟨hi, m, hm, hassoc⟩ ((eNBUEIdKey_eq_iff hm).mpr henb) id
  exact ⟨t, t', by simp [s1AssocRegisterECMSession, deref, ht, hk, hinsert]⟩

end MME

end AaltoMME
