import AaltoMME.MME.Connections
import AaltoMME.MME.Reset
import Mathlib.Order.Interval.Finset.Nat

/-!
# The consistency of the session tables

A session is opened by an initialUEMessage, moved by a path switch, and closed by the end of its UE context, by a
reset or by the loss of its association.  The tables stay consistent as long as no eNodeB uses an identifier
twice, no more than `MAX_UE` sessions are open, and an eNodeB resets only sessions of its own; `Proper` says so
of one event, and the first event that is not proper leaves them inconsistent.
-/

namespace AaltoMME

open Base NAS PtrTable

namespace MME

variable {P : Prims} {x : Env} {w v u : MME} {a id i k : Nat} {s s' : ECMSession} {t : S1Assoc} {n : SessionIds}
  {X : Nat → Prop}

/-! ## Consistent tables -/

/-- Every live session is found under both of its identifiers, and no association has a session that was freed. -/
structure Consistent (w : MME) : Prop where
  byLocalID : ∀ i s, w.ecms i = some s → w.mmeLookupECM s.mmeUEId = .ok (some i)
  byENBUEId : ∀ i s, w.ecms i = some s → w.s1AssocGetECMSession s.assoc s.eNBUEId = .ok (some i)
  live : ∀ a t, w.assocs a = some t → ∀ f ∈ t.ecmSessions, (w.ecms f.value).isSome ∧ (w.ecms f.key).isSome

theorem ecms_isSome_of_ids (h : w.ids i = some n) : (w.ecms i).isSome := by
  obtain ⟨s, hs, -⟩ := ids_eq_some.mp h
  rw [hs]
  rfl

theorem Filed.consistent (h : w.AllFiled) : w.Consistent where
  byLocalID i s hs := by
    have hlive : (w.ids i).isSome := by
      rw [ids_of_ecms hs]
      rfl
    exact h.byLocalID.lookup_eq hlive (mmeUEIdKey_of_ids (ids_of_ecms hs))
  byENBUEId i s hs := by
    obtain ⟨t, ht⟩ := Option.isSome_iff_exists.mp (h.assoc i _ (ids_of_ecms hs))
    replace ht : w.assocs s.assoc = some t := ht
    rw [s1AssocGetECMSession, deref_eq_ok.mpr ⟨_, rfl, ht⟩, ok_bind]
    exact (h.byENBUEId _ t ht not_false).lookup_eq ⟨_, ids_of_ecms hs, rfl⟩ (eNBUEIdKey_of_ids (ids_of_ecms hs))
  live a t ht f hf := by
    have hindex := h.byENBUEId a t ht not_false
    obtain ⟨n, hn, -⟩ := (hindex.mem f.key).mpr ⟨f, hf, rfl⟩
    rw [hindex.self f hf]
    exact ⟨ecms_isSome_of_ids hn, ecms_isSome_of_ids hn⟩

theorem not_consistent_of_used {m : SessionIds} (hi : i ≠ id) (hm : w.ids i = some m)
    (ha : m.assoc = a) (ht : w.assocs a = some t)
    (hentry : ∃ t', t.ecmSessions = ⟨gIntHash m.eNBUEId, i, id⟩ :: t') : ¬ w.Consistent := by
  intro h
  subst ha
  obtain ⟨t', hentry⟩ := hentry
  obtain ⟨s, hs, rfl⟩ := ids_eq_some.mp hm
  replace ht : w.assocs s.assoc = some t := ht
  have hlookup := h.byENBUEId i s hs
  have hkey : w.eNBUEIdKey i = .ok s.eNBUEId := eNBUEIdKey_of_ids hm
  have hhash : gIntHash s.ids.eNBUEId = gIntHash s.eNBUEId := rfl
  rw [s1AssocGetECMSession, deref_eq_ok.mpr ⟨_, rfl, ht⟩, ok_bind, hentry] at hlookup
  simp only [lookup, find, hhash, if_true, hkey, ok_bind, Option.map_some, pure_eq_ok, Except.ok.injEq,
    Option.some.injEq] at hlookup
  exact hi hlookup.symm

theorem not_consistent_of_freed {t' : PtrTable UInt32} (hn : w.ids id = some n) (hi : w.ecms i = none)
    (hentry : w.ecmSessionsByLocalID = ⟨gIntHash n.mmeUEId, i, id⟩ :: t') : ¬ w.Consistent := by
  intro h
  obtain ⟨s, hs, rfl⟩ := ids_eq_some.mp hn
  have hlookup := h.byLocalID id s hs
  have hhash : gIntHash s.ids.mmeUEId = gIntHash s.mmeUEId := rfl
  rw [mmeLookupECM, hentry] at hlookup
  simp [lookup, find, hhash, mmeUEIdKey, deref, hi] at hlookup

/-! ## A new session -/

/-- `w` with a session that is in no table yet. -/
structure Opens (w : MME) (n : SessionIds) (v : MME) : Prop where
  ids : v.ids = Function.update w.ids w.fresh (some n)
  assocs : v.assocs = w.assocs
  byLocalID : v.ecmSessionsByLocalID = w.ecmSessionsByLocalID
  localIDs : v.s1LocalIDs = if n.mmeUEId = 0 then w.s1LocalIDs else n.mmeUEId :: w.s1LocalIDs
  fresh : w.fresh < v.fresh

theorem post_ecmSessionFree : Post (w.ecmSessionFree id) fun v =>
    v.ecms = Function.update w.ecms id none ∧ v.ecmSessionsByLocalID = w.ecmSessionsByLocalID := by
  refine .of_bind fun s => ?_
  cases s.emm with
  | none => exact .error
  | some e => exact .of_bind fun _ => .of_bind fun _ => .ok ⟨rfl, rfl⟩

namespace Opens

theorem ids_self (h : w.Opens n v) : v.ids w.fresh = some n := by
  rw [h.ids, Function.update_self]

theorem ids_of_ne (h : w.Opens n v) (hi : i ≠ w.fresh) : v.ids i = w.ids i := by
  rw [h.ids, Function.update_of_ne hi]

theorem ne_fresh (hw : w.AllFiled) {m : SessionIds} (hm : w.ids i = some m) : i ≠ w.fresh := by
  rintro rfl
  rw [hw.freshECM _ le_rfl] at hm
  cases hm

theorem ids_iff (h : w.Opens n v) (hw : w.AllFiled) {m : SessionIds} :
    (i ≠ w.fresh ∧ v.ids i = some m) ↔ w.ids i = some m :=
  ⟨fun ⟨hi, hm⟩ => (h.ids_of_ne hi).symm.trans hm, fun hm => ⟨ne_fresh hw hm, (h.ids_of_ne (ne_fresh hw hm)).trans hm⟩⟩

theorem of_iff (h : w.Opens n v) (hw : w.AllFiled) : (i ≠ w.fresh ∧ v.Of a i) ↔ w.Of a i := by
  constructor
  · rintro ⟨hi, m, hm, hma⟩
    exact ⟨m, (h.ids_iff hw).mp ⟨hi, hm⟩, hma⟩
  · rintro ⟨m, hm, hma⟩
    obtain ⟨hi, hm⟩ := (h.ids_iff hw).mpr hm
    exact ⟨hi, m, hm, hma⟩

theorem isSome_iff (h : w.Opens n v) (hw : w.AllFiled) : (i ≠ w.fresh ∧ (v.ids i).isSome) ↔ (w.ids i).isSome := by
  simp only [Option.isSome_iff_exists, ← h.ids_iff hw, exists_and_left]

theorem pending (h : w.Opens n v) (hw : w.AllFiled) (ha : (w.assocs n.assoc).isSome) : Pending w.fresh n v where
  ids := h.ids_self
  assoc := h.assocs ▸ ha
  byENBUEId b t ht := by
    rw [h.assocs] at ht
    refine (hw.byENBUEId b t ht not_false).congr (fun i => h.of_iff hw) fun i hi => ?_
    exact eNBUEIdKey_congr_ids (h.ids_of_ne ((h.of_iff hw).mpr hi).1) hi.isSome

theorem byLocalID_index (h : w.Opens n v) (hw : w.AllFiled) :
    Indexes gIntHash v.mmeUEIdKey (fun i => i ≠ w.fresh ∧ (v.ids i).isSome) v.ecmSessionsByLocalID := by
  rw [h.byLocalID]
  refine hw.byLocalID.congr (fun i => h.isSome_iff hw) fun i hi => ?_
  exact mmeUEIdKey_congr_ids (h.ids_of_ne ((h.isSome_iff hw).mpr hi).1) hi

section LocalIDs

variable (h : w.Opens n v) (hw : w.AllFiled)

include h hw

theorem nodup (hlocal : n.mmeUEId ≠ 0 → n.mmeUEId ∉ w.s1LocalIDs ∧ n.mmeUEId.toNat ≤ maxUE) :
    v.s1LocalIDs.Nodup := by
  rw [h.localIDs]
  split
  · exact hw.nodup
  · exact List.nodup_cons.mpr ⟨(hlocal ‹_›).1, hw.nodup⟩

theorem range (hlocal : n.mmeUEId ≠ 0 → n.mmeUEId ∉ w.s1LocalIDs ∧ n.mmeUEId.toNat ≤ maxUE) :
    ∀ m ∈ v.s1LocalIDs, 0 < m.toNat ∧ m.toNat ≤ maxUE := by
  rw [h.localIDs]
  split
  · exact hw.range
  · rename_i hne
    refine List.forall_mem_cons.mpr ⟨⟨Nat.pos_of_ne_zero fun hz => hne ?_, (hlocal hne).2⟩, hw.range⟩
    exact UInt32.toNat_inj.mp hz

theorem recorded (i : Nat) (m : SessionIds) (hm : v.ids i = some m) : m.mmeUEId = 0 ∨ m.mmeUEId ∈ v.s1LocalIDs := by
  rw [h.localIDs]
  by_cases hi : i = w.fresh
  · subst hi
    cases h.ids_self.symm.trans hm
    split
    · exact .inl ‹_›
    · exact .inr List.mem_cons_self
  · refine (hw.recorded i m ((h.ids_of_ne hi).symm.trans hm)).imp_right fun hmem => ?_
    split
    · exact hmem
    · exact List.mem_cons_of_mem _ hmem

end LocalIDs

theorem mmeRegisterECM_eq (h : w.Opens n v) (hw : w.AllFiled) (hmme : ∀ i m, w.ids i = some m → m.mmeUEId ≠ n.mmeUEId)
    (t : S1Assoc) :
    ∃ l, (v.setAssoc n.assoc t).mmeRegisterECM w.fresh = .ok { v.setAssoc n.assoc t with ecmSessionsByLocalID := l } ∧
      Indexes gIntHash v.mmeUEIdKey (fun i => (v.ids i).isSome) l := by
  have hk := mmeUEIdKey_of_ids h.ids_self
  have hne : ∀ i, i ≠ w.fresh ∧ (v.ids i).isSome → v.mmeUEIdKey i ≠ .ok n.mmeUEId := by
    rintro i ⟨hi, hsome⟩ hkey
    obtain ⟨m, hm⟩ := Option.isSome_iff_exists.mp hsome
    exact hmme i m ((h.ids_iff hw).mp ⟨hi, hm⟩) ((mmeUEIdKey_eq_iff hm).mp hkey)
  obtain ⟨l, hinsert, hindex⟩ := (h.byLocalID_index hw).insert_new hk hne
  refine ⟨l, ?_, hindex.congr (fun i => ?_) fun _ _ => rfl⟩
  · show v.mmeUEIdKey w.fresh >>= _ = _
    rw [hk]
    show v.ecmSessionsByLocalID.insert gIntHash v.mmeUEIdKey _ w.fresh w.fresh >>= _ = _
    rw [hinsert]
    rfl
  · by_cases hi : i = w.fresh
    · rw [hi, h.ids_self]
      exact ⟨fun _ => .inl rfl, fun _ => rfl⟩
    · exact ⟨fun hsome => .inr ⟨hi, hsome⟩, fun hor => (hor.resolve_left hi).2⟩

theorem register (h : w.Opens n v) (hw : w.AllFiled) (ha : (w.assocs n.assoc).isSome)
    (hmme : ∀ i m, w.ids i = some m → m.mmeUEId ≠ n.mmeUEId)
    (henb : ∀ i m, w.ids i = some m → m.assoc = n.assoc → m.eNBUEId ≠ n.eNBUEId)
    (hlocal : n.mmeUEId ≠ 0 → n.mmeUEId ∉ w.s1LocalIDs ∧ n.mmeUEId.toNat ≤ maxUE) :
    ∃ u, (v.s1AssocRegisterECMSession n.assoc w.fresh >>= fun v => v.mmeRegisterECM w.fresh) = .ok u ∧ u.AllFiled := by
  obtain ⟨t, hreg, hindex⟩ := (h.pending hw ha).register fun i m hi hm => henb i m ((h.ids_iff hw).mp ⟨hi, hm⟩)
  obtain ⟨l, hlocal', hlindex⟩ := h.mmeRegisterECM_eq hw hmme t
  have hassoc : ∀ b, ((v.setAssoc n.assoc t).assocs b).isSome = (w.assocs b).isSome := by
    intro b
    rw [isSome_setAssoc (h.assocs ▸ ha), h.assocs]
  have hold : ∀ i, v.fresh ≤ i → w.fresh ≤ i := fun i hi => Nat.le_of_lt (lt_of_lt_of_le h.fresh hi)
  have hresult : (v.s1AssocRegisterECMSession n.assoc w.fresh >>= fun v => v.mmeRegisterECM w.fresh) =
      .ok { v.setAssoc n.assoc t with ecmSessionsByLocalID := l } := by
    rw [hreg]
    exact hlocal'
  refine ⟨_, hresult, ⟨fun i hi => ?_, fun b hb => ?_, h.nodup hw hlocal, h.range hw hlocal,
    h.recorded hw, hlindex, fun b r hr _ => hindex b r hr, fun i m hm => ?_⟩⟩
  · have hne : i ≠ w.fresh := Nat.ne_of_gt (lt_of_lt_of_le h.fresh hi)
    exact (h.ids_of_ne hne).trans (hw.freshECM i (hold i hi))
  · have hnone := hassoc b
    rw [hw.freshAssoc b (hold b hb)] at hnone
    simpa using hnone
  · rw [hassoc]
    by_cases hi : i = w.fresh
    · subst hi
      cases h.ids_self.symm.trans hm
      exact ha
    · exact hw.assoc i m ((h.ids_of_ne hi).symm.trans hm)

/-- A session with the local identifier of another one, which is freed while its key stays in the table. -/
theorem not_consistent_of_local (h : w.Opens n v) (hw : w.AllFiled) {m : SessionIds} (hm : w.ids i = some m)
    (hmme : m.mmeUEId = n.mmeUEId) :
    Post (v.s1AssocRegisterECMSession n.assoc w.fresh >>= fun v => v.mmeRegisterECM w.fresh) (¬ Consistent ·) := by
  obtain ⟨hi, hvm⟩ := (h.ids_iff hw).mpr hm
  have hk : v.mmeUEIdKey w.fresh = .ok n.mmeUEId := mmeUEIdKey_of_ids h.ids_self
  have hlive : i ≠ w.fresh ∧ (v.ids i).isSome := ⟨hi, by rw [hvm]; rfl⟩
  obtain ⟨l, hinsert⟩ := (h.byLocalID_index hw).insert_used hlive ((mmeUEIdKey_eq_iff hvm).mpr hmme) w.fresh
  refine .bind (Q := fun v' => v'.ecms = v.ecms ∧ v'.ecmSessionsByLocalID = v.ecmSessionsByLocalID)
    (.of_bind fun _ => .of_bind fun _ => .of_bind fun _ => .ok ⟨rfl, rfl⟩) ?_
  rintro v' ⟨hecms, htable⟩
  have hkeys : v'.mmeUEIdKey = v.mmeUEIdKey := funext fun _ => mmeUEIdKey_congr (congrFun hecms _)
  rw [mmeRegisterECM, hkeys, hk, ok_bind, htable, hinsert]
  refine post_ecmSessionFree.mono ?_
  rintro u ⟨hu, hutable⟩
  have hgone : u.ids w.fresh = some n → u.ecms i = none → ¬ u.Consistent := fun hn hi =>
    not_consistent_of_freed hn hi hutable
  refine hgone ?_ ?_
  · rw [MME.ids, hu, Function.update_of_ne hi.symm]
    rw [hecms]
    exact h.ids_self
  · rw [hu, Function.update_self]

/-- A session with the eNB identifier of another one of its association. -/
theorem not_consistent_of_enb (h : w.Opens n v) (hw : w.AllFiled) (ha : (w.assocs n.assoc).isSome)
    (hmme : ∀ i m, w.ids i = some m → m.mmeUEId ≠ n.mmeUEId) {m : SessionIds} (hm : w.ids i = some m)
    (hassoc : m.assoc = n.assoc) (henb : m.eNBUEId = n.eNBUEId) :
    Post (v.s1AssocRegisterECMSession n.assoc w.fresh >>= fun v => v.mmeRegisterECM w.fresh) (¬ Consistent ·) := by
  obtain ⟨hi, hvm⟩ := (h.ids_iff hw).mpr hm
  obtain ⟨t, t', hreg⟩ := (h.pending hw ha).register_used hi hvm hassoc henb
  rw [hreg, ok_bind]
  obtain ⟨l, hlocal, -⟩ := h.mmeRegisterECM_eq hw hmme { t with ecmSessions := ⟨gIntHash n.eNBUEId, i, w.fresh⟩ :: t' }
  rw [hlocal]
  refine .ok (not_consistent_of_used hi hvm hassoc assocs_setAssoc_self ⟨t', ?_⟩)
  rw [henb]

end Opens

/-! ## The identifier of a new session -/

/-- The loop of `mme_newLocalUEid` when every identifier is in use. -/
theorem firstFree_eq_zero {l : List UInt32} (k : Nat) (m : UInt32) (hk : m.toNat + k < 2 ^ 32)
    (hl : ∀ j : UInt32, m.toNat ≤ j.toNat → j.toNat < m.toNat + k → j ∈ l) : firstFree l k m = 0 := by
  induction k generalizing m with
  | zero => rfl
  | succ k ih =>
    have hsucc : (m + 1).toNat = m.toNat + 1 := by
      rw [UInt32.toNat_add]
      exact Nat.mod_eq_of_lt (by simp only [UInt32.reduceToNat]; omega)
    rw [firstFree, if_pos (hl m le_rfl (by omega))]
    exact ih (m + 1) (by omega) fun j hj hlt => hl j (by omega) (by omega)

/-- An identifier is left if and only if less than `MAX_UE` are in use. -/
theorem Filed.exists_free_iff (h : w.Filed X) :
    (∃ j : UInt32, 0 < j.toNat ∧ j.toNat ≤ maxUE ∧ j ∉ w.s1LocalIDs) ↔ w.s1LocalIDs.length < maxUE := by
  have hcard : (Finset.Icc 1 maxUE).card = maxUE := Nat.card_Icc 1 maxUE
  have hsub : (w.s1LocalIDs.map UInt32.toNat).toFinset ⊆ Finset.Icc 1 maxUE := by
    intro j hj
    obtain ⟨m, hm, rfl⟩ := List.mem_map.mp (List.mem_toFinset.mp hj)
    exact Finset.mem_Icc.mpr (h.range m hm)
  have hlength : (w.s1LocalIDs.map UInt32.toNat).toFinset.card = w.s1LocalIDs.length := by
    rw [List.toFinset_card_of_nodup, List.length_map]
    exact h.nodup.map fun _ _ => UInt32.toNat_inj.mp
  constructor
  · rintro ⟨j, hpos, hle, hj⟩
    rw [← hlength, ← hcard]
    refine Finset.card_lt_card ⟨hsub, fun hall => hj ?_⟩
    obtain ⟨m, hm, heq⟩ := List.mem_map.mp (List.mem_toFinset.mp (hall (Finset.mem_Icc.mpr ⟨hpos, hle⟩)))
    exact UInt32.toNat_inj.mp heq ▸ hm
  · intro hlt
    have hss : (w.s1LocalIDs.map UInt32.toNat).toFinset ⊂ Finset.Icc 1 maxUE := by
      refine ⟨hsub, fun hall => ?_⟩
      have := Finset.card_le_card hall
      omega
    obtain ⟨j, hj, hnot⟩ := Finset.exists_of_ssubset hss
    obtain ⟨hpos, hle⟩ := Finset.mem_Icc.mp hj
    have hj32 : (UInt32.ofNat j).toNat = j := by
      exact Nat.mod_eq_of_lt (lt_of_le_of_lt hle (by decide))
    refine ⟨UInt32.ofNat j, by omega, by omega, fun hmem => hnot ?_⟩
    exact List.mem_toFinset.mpr (List.mem_map.mpr ⟨_, hmem, hj32⟩)

theorem Filed.newLocalUEid (h : w.Filed X) :
    ∃ m, w.mmeNewLocalUEid = ({ w with s1LocalIDs := if m = 0 then w.s1LocalIDs else m :: w.s1LocalIDs }, m) ∧
      (m ≠ 0 → m ∉ w.s1LocalIDs ∧ m.toNat ≤ maxUE) ∧ (m = 0 ↔ maxUE ≤ w.s1LocalIDs.length) := by
  refine ⟨firstFree w.s1LocalIDs maxUE 1, ?_, ?_⟩
  · unfold mmeNewLocalUEid
    dsimp only
    split <;> rfl
  by_cases hlt : w.s1LocalIDs.length < maxUE
  · obtain ⟨j, hpos, hle, hj⟩ := h.exists_free_iff.mpr hlt
    obtain ⟨hmem, hge, hlt'⟩ := firstFree_spec hj maxUE 1 hpos (by simp only [UInt32.reduceToNat]; omega)
    have hone : (1 : UInt32).toNat = 1 := rfl
    have hne : firstFree w.s1LocalIDs maxUE 1 ≠ 0 := fun h0 => by
      rw [h0] at hge
      cases hge
    exact ⟨fun _ => ⟨hmem, by omega⟩, fun h0 => absurd h0 hne, fun hle' => absurd hlt (not_lt.mpr hle')⟩
  · have hall : ∀ j : UInt32, (1 : UInt32).toNat ≤ j.toNat → j.toNat < (1 : UInt32).toNat + maxUE → j ∈ w.s1LocalIDs := by
      intro j hj hj'
      by_contra hnot
      exact hlt (h.exists_free_iff.mp ⟨j, hj, by simp only [UInt32.reduceToNat] at hj'; omega, hnot⟩)
    have hzero := firstFree_eq_zero maxUE 1 (by decide) hall
    exact ⟨(absurd hzero), fun _ => not_lt.mp hlt, fun _ => hzero⟩

/-! ## An initialUEMessage -/

theorem sameFiles_bindEMM (found : Option Nat) :
    Post (w.bindEMM x id s found) fun r => (w.setECM id s).SameFiles r.1 := by
  have hset : ∀ e, (w.setECM id s).SameFiles (w.setECM id { s with emm := some e }) := by
    intro e
    refine ⟨?_, rfl, rfl, rfl, le_rfl⟩
    rw [ids_setECM, ids_setECM]
    rfl
  cases found with
  | none => exact .ok ((hset w.fresh).trans ⟨rfl, rfl, rfl, rfl, Nat.le_succ _⟩)
  | some e => exact .bind (sameFiles_onEMM _ _) fun v hv => .ok ((hset e).trans hv)

theorem sameFiles_idleProcessMsg {msg : S1APMsg} (rSid : Nat)
    (hmsg : msg.procedureCode = .initialUEMessage ∧ msg.choice = .initiatingMessage) :
    Post (w.idleProcessMsg P x id s msg rSid) fun v =>
      ∃ j, msg.eNBUEId = some j ∧ (w.setECM id { s with eNBUEId := j }).SameFiles v := by
  rw [idleProcessMsg, if_pos hmsg]
  refine .bind_of_eq fun j hj => .of_bind fun ⟨buf, size⟩ => .of_bind fun ⟨sn, tAC⟩ =>
    Post.of_bind fun found => .bind (sameFiles_bindEMM found) fun ⟨v, e⟩ hv => ?_
  refine (sameFiles_onEMM _ _).mono fun u hu => ⟨j, ie_eq_ok.mp hj, ?_⟩
  have hfirst : v.ids = (w.setECM id { s with eNBUEId := j }).ids := by
    rw [hv.ids, ids_setECM, ids_setECM]
    rfl
  have hsecond : v.SameFiles (v.setECM id { s with
      eNBUEId := j, sn, tAC
      rSid := if rSid ≠ 0 then rSid else s.rSid
      rSidValid := rSid ≠ 0 || s.rSidValid
      emm := some e, stateName := .connected }) := by
    refine SameFiles.setECM ?_
    rw [hfirst, ids_setECM, Function.update_self]
    rfl
  have hbound : (w.setECM id { s with eNBUEId := j }).SameFiles v :=
    ⟨hfirst, hv.assocs, hv.byLocalID, hv.localIDs, hv.fresh⟩
  exact (hbound.trans hsecond).trans hu

/-- What an initialUEMessage does before the session is entered in the tables. -/
theorem post_ecmSessionInit (h : w.Filed X) {msg : S1APMsg} (rSid : Nat)
    (hmsg : msg.procedureCode = .initialUEMessage ∧ msg.choice = .initiatingMessage) :
    Post (w.ecmSessionInit P x a msg rSid) fun u => ∃ m j v, msg.eNBUEId = some j ∧ w.Opens ⟨a, m, j⟩ v ∧
      (m ≠ 0 → m ∉ w.s1LocalIDs ∧ m.toNat ≤ maxUE) ∧ (m = 0 ↔ maxUE ≤ w.s1LocalIDs.length) ∧
      (v.s1AssocRegisterECMSession a w.fresh >>= fun v => v.mmeRegisterECM w.fresh) = .ok u := by
  obtain ⟨m, hnew, hlocal⟩ := h.newLocalUEid
  unfold ecmSessionInit
  simp only [hnew]
  refine .bind (sameFiles_idleProcessMsg rSid hmsg) fun v ⟨j, hj, hv⟩ => fun u hu => ?_
  refine ⟨m, j, v, hj, ⟨?_, hv.assocs, hv.byLocalID, hv.localIDs, hv.fresh⟩, hlocal.1, hlocal.2, hu⟩
  rw [hv.ids, ids_setECM, ids_setECM]
  exact Function.update_idem ..

/-! ## A path switch -/

/-- `w` with a session that has left its association and has new identifiers. -/
structure Moved (w : MME) (id : Nat) (n : SessionIds) (v : MME) : Prop where
  ids : v.ids = Function.update w.ids id (some n)
  assocs : ∀ b, (v.assocs b).isSome = (w.assocs b).isSome
  byLocalID : v.ecmSessionsByLocalID = w.ecmSessionsByLocalID
  localIDs : v.s1LocalIDs = w.s1LocalIDs
  fresh : v.fresh = w.fresh
  pending : Pending id n v

theorem ecms_s1AssocRegisterECMSession (a id : Nat) :
    Post (w.s1AssocRegisterECMSession a id) fun v => v.ecms = w.ecms :=
  Post.of_bind fun _ => .of_bind fun _ => .of_bind fun _ => .ok rfl

namespace Moved

theorem filed (h : w.Moved id n v) (hw : w.AllFiled) {m : SessionIds} (hm : w.ids id = some m)
    (hmme : n.mmeUEId = m.mmeUEId)
    (henb : ∀ i m, i ≠ id → w.ids i = some m → m.assoc = n.assoc → m.eNBUEId ≠ n.eNBUEId) :
    Post (v.s1AssocRegisterECMSession n.assoc id) AllFiled := by
  have hne : ∀ i, i ≠ id → v.ids i = w.ids i := fun i hi => by rw [h.ids, Function.update_of_ne hi]
  obtain ⟨t, hreg, hindex⟩ := h.pending.register fun i m hi hm => henb i m hi ((hne i hi).symm.trans hm)
  rw [hreg]
  have hassocs : ∀ b, ((v.setAssoc n.assoc t).assocs b).isSome = (w.assocs b).isSome := fun b =>
    (isSome_setAssoc h.pending.assoc b).trans (h.assocs b)
  have hsome : ∀ i, (v.ids i).isSome = (w.ids i).isSome := by
    intro i
    by_cases hi : i = id
    · rw [hi, h.pending.ids, hm]
      rfl
    · rw [hne i hi]
  refine .ok ⟨fun i hi => ?_, fun b hb => ?_, ?_, ?_, fun i k hk => ?_, ?_, fun b r hr _ => hindex b r hr,
    fun i k hk => ?_⟩
  · have hnone := hsome i
    rw [hw.freshECM i (h.fresh ▸ hi)] at hnone
    show v.ids i = none
    simpa using hnone
  · have hnone := hassocs b
    rw [hw.freshAssoc b (h.fresh ▸ hb)] at hnone
    simpa using hnone
  · exact h.localIDs ▸ hw.nodup
  · exact h.localIDs ▸ hw.range
  · show k.mmeUEId = 0 ∨ k.mmeUEId ∈ v.s1LocalIDs
    rw [h.localIDs]
    by_cases hi : i = id
    · subst hi
      cases h.pending.ids.symm.trans hk
      rw [hmme]
      exact hw.recorded i m hm
    · exact hw.recorded i k ((hne i hi).symm.trans hk)
  · show Indexes gIntHash v.mmeUEIdKey (fun i => (v.ids i).isSome) v.ecmSessionsByLocalID
    rw [h.byLocalID]
    refine hw.byLocalID.congr (fun i => by rw [hsome]) fun i hi => ?_
    by_cases hid : i = id
    · rw [hid, mmeUEIdKey_of_ids h.pending.ids, mmeUEIdKey_of_ids hm, hmme]
    · exact mmeUEIdKey_congr_ids (hne i hid) hi
  · rw [hassocs]
    by_cases hi : i = id
    · subst hi
      cases h.pending.ids.symm.trans hk
      rw [← h.assocs]
      exact h.pending.assoc
    · exact hw.assoc i k ((hne i hi).symm.trans hk)

/-- Another session of the new association has the eNB identifier. -/
theorem not_consistent (h : w.Moved id n v) {m : SessionIds} (hi : i ≠ id) (hm : w.ids i = some m)
    (hassoc : m.assoc = n.assoc) (henb : m.eNBUEId = n.eNBUEId) :
    Post (v.s1AssocRegisterECMSession n.assoc id) fun v' => ∀ u, v'.SameFiles u → ¬ u.Consistent := by
  have hvm : v.ids i = some m := by
    rw [h.ids, Function.update_of_ne hi, hm]
  obtain ⟨t, t', hreg⟩ := h.pending.register_used hi hvm hassoc henb
  rw [hreg]
  refine .ok fun u hu => ?_
  refine not_consistent_of_used (t := { t with ecmSessions := ⟨gIntHash n.eNBUEId, i, id⟩ :: t' }) hi ?_ hassoc ?_ ⟨t', ?_⟩
  · rw [hu.ids]
    exact hvm
  · rw [hu.assocs]
    exact assocs_setAssoc_self
  · rw [henb]

end Moved

/-- The session with its new identifiers, after it left the table of its association. -/
theorem moved_setECM (h : w.AllFiled) (hs : w.ecms id = some s) (s' : ECMSession) (ha : (w.assocs s'.assoc).isSome)
    (r : S1Assoc) (hindex : Indexes gIntHash w.eNBUEIdKey (fun i => i ≠ id ∧ w.Of s.assoc i) r.ecmSessions) :
    w.Moved id s'.ids ((w.setAssoc s.assoc r).setECM id s') := by
  have hn := ids_of_ecms hs
  have hids : ((w.setAssoc s.assoc r).setECM id s').ids = Function.update w.ids id (some s'.ids) := ids_setECM
  have hself : ((w.setAssoc s.assoc r).setECM id s').ids id = some s'.ids := by rw [hids, Function.update_self]
  have hne : ∀ i, i ≠ id → ((w.setAssoc s.assoc r).setECM id s').ids i = w.ids i := fun i hi => by
    rw [hids, Function.update_of_ne hi]
  have hassocs : ∀ b, (((w.setAssoc s.assoc r).setECM id s').assocs b).isSome = (w.assocs b).isSome :=
    isSome_setAssoc (h.assoc id _ hn)
  have hof : ∀ b i, (i ≠ id ∧ ((w.setAssoc s.assoc r).setECM id s').Of b i) ↔ (i ≠ id ∧ w.Of b i) := by
    refine fun b i => and_congr_right fun hi => ?_
    simp only [Of, hne i hi]
  refine ⟨hids, hassocs, rfl, rfl, rfl, hself, (hassocs _).trans ha, fun b t ht => ?_⟩
  by_cases hb : b = s.assoc
  · subst hb
    obtain rfl := Option.some.inj (assocs_setAssoc_self.symm.trans ht)
    exact hindex.congr (hof _) fun i hi => eNBUEIdKey_congr_ids (hne i hi.1) hi.2.isSome
  · have ht : w.assocs b = some t := (assocs_setAssoc_of_ne hb).symm.trans ht
    have hother : ∀ i, w.Of b i → i ≠ id := by
      rintro i ⟨m, hm, rfl⟩ rfl
      exact hb (congrArg SessionIds.assoc (Option.some.inj (hm.symm.trans hn)))
    refine (h.byENBUEId b t ht not_false).congr (fun i => ?_) fun i hi => eNBUEIdKey_congr_ids (hne i (hother i hi)) hi.isSome
    exact (hof b i).trans ⟨And.right, fun hi => ⟨hother i hi, hi⟩⟩

/-- What a path switch does: the session moves, is entered in the table, and its context is told. -/
theorem post_ecmSessionPathSwitchReq (h : w.AllFiled) (ha : (w.assocs a).isSome) (hs : w.ecms id = some s)
    {msg : S1APMsg} (rSid : Nat) :
    Post (w.ecmSessionPathSwitchReq P x (some id) a msg rSid) fun u => ∃ j v v', msg.eNBUEId = some j ∧
      w.Moved id ⟨a, s.mmeUEId, j⟩ v ∧ v.s1AssocRegisterECMSession a id = .ok v' ∧ v'.SameFiles u := by
  refine .bind_of_eq fun s' hs' => .of_bind fun _ => ?_
  obtain ⟨_, ⟨⟩, hs'⟩ := deref_eq_ok.mp hs'
  obtain rfl : s = s' := Option.some.inj (hs.symm.trans hs')
  obtain ⟨t, t', ht, hremove, hindex⟩ := s1AssocDeregisterECMSession_eq h (ids_of_ecms hs)
  rw [show w.s1AssocDeregisterECMSession s.assoc id = _ from hremove, ok_bind]
  refine .bind_of_eq fun j hj => .bind_of_eq fun v' hreg => .of_bind fun ⟨sn, tAC⟩ =>
    Post.ite (fun _ => .error) fun _ => (sameFiles_onEMM _ _).mono fun u hu => ?_
  refine ⟨j, _, v', ie_eq_ok.mp hj, ?_, hreg, SameFiles.trans (.setECM ?_) hu⟩
  · exact moved_setECM h hs { s with assoc := a, rSid, eNBUEId := j } ha { t with ecmSessions := t' } hindex
  · have hecms : v'.ecms = _ := ecms_s1AssocRegisterECMSession _ _ v' hreg
    rw [ids, hecms, ecms_setECM_self]
    rfl

/-! ## Proper events -/

/-- No session of the association has the eNB identifier, apart from the one with the MME identifier `k`. -/
def NewENBUEId (w : MME) (a : Nat) (j : UInt32) (k : Option UInt32) : Prop :=
  ∀ i < w.fresh, ∀ s ∈ w.ecms i, s.assoc = a → s.eNBUEId = j → some s.mmeUEId = k

/-- An MME identifier is left, or 0 is not in use, which stands for it when none is left. -/
def LocalIDLeft (w : MME) : Prop := w.s1LocalIDs.length < maxUE ∨ ∀ i < w.fresh, ∀ s ∈ w.ecms i, s.mmeUEId ≠ 0

/-- The messages of an association in S1_Active that keep the tables consistent. -/
def ProperMsg (w : MME) (a : Nat) (t : S1Assoc) (msg : S1APMsg) (rSid : Nat) : Prop :=
  match msg.procedureCode, msg.choice with
  | .initialUEMessage, .initiatingMessage => (∀ j ∈ msg.eNBUEId, w.NewENBUEId a j none) ∧ w.LocalIDLeft
  | .pathSwitchRequest, .initiatingMessage => ∀ j ∈ msg.eNBUEId, w.NewENBUEId a j msg.sourceMMEUEId
  | .reset, _ => rSid = t.nonueRsid → ∀ ty ∈ msg.resetType, w.ResetOf a ty
  | _, _ => True

/-- The events that keep the tables consistent. -/
def Proper (w : MME) : Env × MMEEvent → Prop
  | (_, .s1ap a msg rSid) => ∀ t ∈ w.assocs a, t.active = true → w.ProperMsg a t msg rSid
  | _ => True

section Decidable

instance (j : UInt32) (k : Option UInt32) : Decidable (w.NewENBUEId a j k) :=
  inferInstanceAs (Decidable (∀ i < w.fresh, ∀ s ∈ w.ecms i, s.assoc = a → s.eNBUEId = j → some s.mmeUEId = k))

instance : Decidable w.LocalIDLeft :=
  inferInstanceAs (Decidable (_ ∨ ∀ i < w.fresh, ∀ s ∈ w.ecms i, s.mmeUEId ≠ 0))

instance (item : ResetItem) : Decidable (w.ItemOf a item) :=
  inferInstanceAs (Decidable (_ → ∀ i < w.fresh, ∀ s ∈ w.ecms i, item.mmeUEId = some s.mmeUEId → s.assoc = a))

instance : (ty : ResetType) → Decidable (w.ResetOf a ty)
  | .s1Interface => inferInstanceAs (Decidable True)
  | .partOfS1Interface items => inferInstanceAs (Decidable (∀ item ∈ items, w.ItemOf a item))

instance (msg : S1APMsg) (rSid : Nat) : Decidable (w.ProperMsg a t msg rSid) := by
  have hall : ∀ k, Decidable (∀ j ∈ msg.eNBUEId, w.NewENBUEId a j k) := fun _ => Option.decidableForallMem _
  unfold ProperMsg
  split <;> infer_instance

instance : (ev : Env × MMEEvent) → Decidable (w.Proper ev)
  | (_, .s1ap a msg rSid) =>
    inferInstanceAs (Decidable (∀ t ∈ w.assocs a, t.active = true → w.ProperMsg a t msg rSid))
  | (_, .accept) | (_, .closed _) | (_, .timer _ _) | (_, .s11 _) => inferInstanceAs (Decidable True)

end Decidable

/-! ## One event -/

/-- The tables are in order if `Q` holds, and inconsistent otherwise. -/
def FiledIff (Q : Prop) (u : MME) : Prop := (Q → u.AllFiled) ∧ (¬ Q → ¬ u.Consistent)

theorem filedIff_of_filed {Q : Prop} (hQ : Q) (h : u.AllFiled) : u.FiledIff Q := ⟨fun _ => h, (absurd hQ)⟩

theorem filedIff_ecmSessionInit (h : w.AllFiled) (ha : (w.assocs a).isSome) {msg : S1APMsg} (rSid : Nat)
    (hmsg : msg.procedureCode = .initialUEMessage ∧ msg.choice = .initiatingMessage) :
    Post (w.ecmSessionInit P x a msg rSid)
      (FiledIff ((∀ j ∈ msg.eNBUEId, w.NewENBUEId a j none) ∧ w.LocalIDLeft)) := by
  refine (post_ecmSessionInit h rSid hmsg).mono ?_
  rintro u ⟨m, j, v, hj, hopens, hlocal, hzero, hreg⟩
  constructor
  · rintro ⟨henb, hleft⟩
    have hmme : ∀ i k, w.ids i = some k → k.mmeUEId ≠ m := by
      rintro i k hk rfl
      obtain ⟨s, hs, rfl⟩ := ids_eq_some.mp hk
      by_cases hz : s.ids.mmeUEId = 0
      · rcases hleft with hlt | hne
        · exact absurd (hzero.mp hz) (Nat.not_le.mpr hlt)
        · exact hne i (h.lt_fresh hs) s hs hz
      · exact (hlocal hz).1 ((h.recorded i _ hk).resolve_left hz)
    have hnew : ∀ i k, w.ids i = some k → k.assoc = a → k.eNBUEId ≠ j := by
      rintro i k hk hka hkj
      obtain ⟨s, hs, rfl⟩ := ids_eq_some.mp hk
      cases henb j hj i (h.lt_fresh hs) s hs hka hkj
    obtain ⟨u', hu', hfiled⟩ := hopens.register h ha hmme hnew hlocal
    obtain rfl : u = u' := Except.ok.inj (hreg.symm.trans hu')
    exact hfiled
  · intro hQ
    by_cases hconf : ∃ i k, w.ids i = some k ∧ k.mmeUEId = m
    · obtain ⟨i, k, hk, hkm⟩ := hconf
      exact hopens.not_consistent_of_local h hk hkm u hreg
    · have hmme : ∀ i k, w.ids i = some k → k.mmeUEId ≠ m := fun i k hk hkm => hconf ⟨i, k, hk, hkm⟩
      have hleft : w.LocalIDLeft := by
        by_cases hz : m = 0
        · exact .inr fun i _ s hs hs0 => hmme i _ (ids_of_ecms hs) (hs0.trans hz.symm)
        · exact .inl (Nat.lt_of_not_le fun hle => hz (hzero.mpr hle))
      obtain ⟨i, s, hs, hsa, hsj⟩ : ∃ i s, w.ecms i = some s ∧ s.assoc = a ∧ s.eNBUEId = j := by
        by_contra hno
        refine hQ ⟨fun j' hj' i _ s hs hsa hsj => ?_, hleft⟩
        obtain rfl : j = j' := Option.some.inj (hj.symm.trans hj')
        exact absurd ⟨i, s, hs, hsa, hsj⟩ hno
      exact hopens.not_consistent_of_enb h ha hmme (ids_of_ecms hs) hsa hsj u hreg

theorem filedIff_pathSwitchRequest (h : w.AllFiled) (ha : (w.assocs a).isSome) (msg : S1APMsg) (rSid : Nat) :
    Post (w.pathSwitchRequest P x a msg rSid)
      (FiledIff (∀ j ∈ msg.eNBUEId, w.NewENBUEId a j msg.sourceMMEUEId)) := by
  refine .bind_of_eq fun m hm => ?_
  have hm := ie_eq_ok.mp hm
  rcases h.lookupECM m with hnone | ⟨id, s, hs, rfl, hsome⟩
  · rw [hnone]
    exact .error
  rw [hsome, ok_bind]
  refine (post_ecmSessionPathSwitchReq h ha hs rSid).mono ?_
  rintro u ⟨j, v, v', hj, hmoved, hreg, hsame⟩
  -- the session is the one with its identifier
  have hid : ∀ i r, w.ecms i = some r → (some r.mmeUEId = msg.sourceMMEUEId ↔ i = id) := by
    intro i r hr
    rw [hm, Option.some.injEq]
    constructor
    · intro heq
      refine h.byLocalID.eq_of_read ?_ ?_ ((mmeUEIdKey_eq_iff (ids_of_ecms hr)).mpr heq)
        (mmeUEIdKey_of_ids (ids_of_ecms hs))
      · rw [ids_of_ecms hr]
        rfl
      · rw [ids_of_ecms hs]
        rfl
    · rintro rfl
      rw [Option.some.inj (hr.symm.trans hs)]
  constructor
  · intro hnew
    refine hsame.filed (hmoved.filed h (ids_of_ecms hs) rfl ?_ v' hreg)
    rintro i k hi hk hka hkj
    obtain ⟨r, hr, rfl⟩ := ids_eq_some.mp hk
    exact hi ((hid i r hr).mp (hnew j hj i (h.lt_fresh hr) r hr hka hkj))
  · intro hold
    obtain ⟨i, r, hr, hi, hra, hrj⟩ : ∃ i r, w.ecms i = some r ∧ i ≠ id ∧ r.assoc = a ∧ r.eNBUEId = j := by
      by_contra hno
      refine hold fun j' hj' i _ r hr hra hrj => (hid i r hr).mpr ?_
      obtain rfl : j = j' := Option.some.inj (hj.symm.trans hj')
      by_contra hi
      exact hno ⟨i, r, hr, hi, hra, hrj⟩
    exact hmoved.not_consistent hi (ids_of_ecms hr) hra hrj v' hreg u hsame

theorem filedIff_processReset (h : w.AllFiled) (ht : w.assocs a = some t) (msg : S1APMsg) :
    Post (w.processReset x a t msg) (FiledIff (∀ ty ∈ msg.resetType, w.ResetOf a ty)) := by
  have ha : (w.assocs a).isSome := by
    rw [ht]
    rfl
  rcases hty : msg.resetType with _ | ty
  · rw [processReset, hty]
    exact .error
  cases ty with
  | s1Interface =>
    refine (filed_resetAll h ht hty).mono fun v hv => filedIff_of_filed ?_ hv.1
    rintro _ ⟨⟩
    trivial
  | partOfS1Interface items =>
    have hof : (∀ ty ∈ some (ResetType.partOfS1Interface items), w.ResetOf a ty) ↔ ∀ item ∈ items, w.ItemOf a item :=
      ⟨fun hall => hall _ rfl, fun hall ty hty => by cases hty; exact hall⟩
    rw [processReset, hty, hof]
    by_cases hitems : ∀ item ∈ items, w.ItemOf a item
    · exact (filed_resetItems items h ha hitems).mono fun v hv => filedIff_of_filed hitems hv.1
    · refine (stale_of_items items h ha hitems).mono ?_
      rintro v ⟨id, s, -, -, hgone, b, r, -, hr, f, hf, rfl⟩
      refine ⟨fun hall => absurd hall hitems, fun _ hcons => ?_⟩
      have hlive := (hcons.live b r hr f hf).1
      rw [hgone] at hlive
      cases hlive

theorem filed_connectedProcedure (h : w.AllFiled) (hs : w.ecms id = some s) (msg : S1APMsg) :
    Post (w.connectedProcedure P x id s msg) AllFiled := by
  have hset : ∀ b, (w.setECM id { s with causeRelease := b }).AllFiled := fun b => h.setECM hs rfl
  have hemm : ∀ {w : MME} (p f), w.AllFiled → Post (w.onEMM x p f) AllFiled := fun p f h =>
    (sameFiles_onEMM p f).mono fun _ hv => hv.filed h
  unfold connectedProcedure
  split
  · exact (filed_remove filed_mmeDeregisterECM (hset false) ecms_setECM_self rfl).mono fun _ hv => hv.1
  · exact .of_bind fun _ => .ite (fun _ => hemm _ _ h) fun _ => .ok h
  · exact .of_bind fun _ => .ite (fun _ => .of_bind fun _ => hemm _ _ h) fun _ => .ok h
  · exact hemm _ _ (hset _)
  · exact .ok h

theorem filed_ecmSessionProcessMsg (h : w.AllFiled) (id : Nat) {msg : S1APMsg} (rSid : Nat)
    (hmsg : ¬ (msg.procedureCode = .initialUEMessage ∧ msg.choice = .initiatingMessage)) :
    Post (w.ecmSessionProcessMsg P x id msg rSid) AllFiled := by
  refine .bind_of_eq fun s hs => ?_
  obtain ⟨_, ⟨⟩, hs⟩ := deref_eq_ok.mp hs
  cases s.stateName with
  | idle => exact .ite (fun hinit => absurd hinit hmsg) fun _ => .ok h
  | connected =>
    refine .ite (fun _ => .ok h) fun _ => filed_connectedProcedure ?_ ecms_setECM_self msg
    exact h.setECM hs rfl

theorem filed_ueAssociated (h : w.AllFiled) (a : Nat) {msg : S1APMsg} (rSid : Nat)
    (hmsg : ¬ (msg.procedureCode = .initialUEMessage ∧ msg.choice = .initiatingMessage)) :
    Post (w.ueAssociated P x a msg rSid) AllFiled := by
  refine .of_bind fun j => .of_bind fun found => ?_
  cases found with
  | none => exact .ok h
  | some id =>
    refine .of_bind fun m => .of_bind fun k => .ite (fun _ => .ok h) fun _ => ?_
    exact filed_ecmSessionProcessMsg h id rSid hmsg

theorem filedIff_activeProcessMsg (h : w.AllFiled) (ht : w.assocs a = some t) (msg : S1APMsg) (rSid : Nat) :
    Post (w.activeProcessMsg P x a t msg rSid) (FiledIff (w.ProperMsg a t msg rSid)) := by
  have ha : (w.assocs a).isSome := by
    rw [ht]
    rfl
  unfold activeProcessMsg ProperMsg
  split
  · rename_i hr
    split
    · rename_i hp
      simp only [hr, hp, forall_const]
      exact filedIff_processReset h ht msg
    · rename_i hp hc
      simp only [hp, hc]
      exact filedIff_ecmSessionInit h ha rSid ⟨hp, hc⟩
    · rename_i hp hc
      simp only [hp, hc]
      exact filedIff_pathSwitchRequest h ha msg rSid
    · refine .ok (filedIff_of_filed ?_ h)
      split <;> simp_all
  · split
    · rename_i hp hc
      simp only [hp, hc]
      exact filedIff_ecmSessionInit h ha rSid ⟨hp, hc⟩
    · rename_i hp hc
      simp only [hp, hc]
      exact filedIff_pathSwitchRequest h ha msg rSid
    · rename_i hinit hpath
      refine (filed_ueAssociated h a rSid fun hmsg => hinit hmsg.1 hmsg.2).mono fun u hu => filedIff_of_filed ?_ hu
      split <;> simp_all

theorem filed_notConfiguredProcessMsg (h : w.AllFiled) (ht : w.assocs a = some t) (msg : S1APMsg) (rSid : Nat) :
    Post (w.notConfiguredProcessMsg x a t msg rSid) AllFiled := by
  -- the table of the association stays
  have hset : ∀ r, r.ecmSessions = t.ecmSessions → (w.setAssoc a r).AllFiled := by
    intro r hr
    refine (h.setAssoc (by rw [ht]; rfl)).all fun r' hr' => ?_
    obtain rfl := Option.some.inj (assocs_setAssoc_self.symm.trans hr')
    rw [hr]
    exact h.byENBUEId a t ht not_false
  refine .ite (fun _ => .ok (hset _ rfl)) fun _ => .ite (fun _ => .error) fun _ => ?_
  split
  · exact .ok (hset _ rfl)
  · exact filed_s1AssocFree (hset _ rfl)
  · refine .ok ?_
    rw [setAssoc, setAssoc, Function.update_idem]
    exact hset { t with nonueRsid := rSid, active := true } rfl

theorem filed_accept (h : w.AllFiled) : AllFiled { w.setAssoc w.fresh ⟨false, 0, []⟩ with fresh := w.fresh + 1 } := by
  have hlive : ∀ {b t}, w.assocs b = some t → b ≠ w.fresh := by
    rintro b t ht rfl
    rw [h.freshAssoc _ (Nat.le_refl _)] at ht
    cases ht
  have hw : Filed (· = w.fresh) { w with fresh := w.fresh + 1 } :=
    ⟨fun i hi => h.freshECM i (Nat.le_of_succ_le hi), fun b hb => h.freshAssoc b (Nat.le_of_succ_le hb), h.nodup, h.range,
      h.recorded, h.byLocalID, fun b t ht _ => h.byENBUEId b t ht not_false, h.assoc⟩
  refine hw.drop (o := some ⟨false, 0, []⟩) (fun i ⟨n, hn, ha⟩ => ?_) (Nat.lt_succ_self _) ?_
  · obtain ⟨t, ht⟩ := Option.isSome_iff_exists.mp (h.assoc i n hn)
    exact hlive ht ha
  · rintro _ ⟨⟩
    rfl

/-- **One event.** The tables stay in order if the event is proper, and are inconsistent after any other one. -/
theorem filedIff_step (h : w.AllFiled) (ev : Env × MMEEvent) : Post (w.step P ev) (FiledIff (w.Proper ev)) := by
  obtain ⟨x, ev⟩ := ev
  have hemm : ∀ p f, Post (w.onEMM x p f) (FiledIff True) := fun p f =>
    (sameFiles_onEMM p f).mono fun u hu => filedIff_of_filed trivial (hu.filed h)
  cases ev with
  | accept => exact .ok (filedIff_of_filed trivial (filed_accept h))
  | s1ap a msg rSid =>
    refine .bind_of_eq fun t ht => ?_
    obtain ⟨_, ⟨⟩, ht⟩ := deref_eq_ok.mp ht
    have hproper : w.Proper (x, .s1ap a msg rSid) ↔ (t.active = true → w.ProperMsg a t msg rSid) := by
      refine ⟨fun hall => hall t ht, fun hall t' ht' => ?_⟩
      obtain rfl : t = t' := Option.some.inj (ht.symm.trans ht')
      exact hall
    rw [hproper]
    refine .ite (fun hactive => ?_) fun hactive => ?_
    · simp only [hactive, forall_const]
      exact filedIff_activeProcessMsg h ht msg rSid
    · refine (filed_notConfiguredProcessMsg h ht msg rSid).mono fun u hu => filedIff_of_filed ?_ hu
      exact fun htrue => absurd htrue hactive
  | closed a => exact (filed_s1AssocFree h).mono fun u hu => filedIff_of_filed trivial hu
  | timer e code =>
    simp only [step]
    exact hemm _ _
  | s11 pkt =>
    simp only [step]
    split
    · exact .ok (filedIff_of_filed trivial h)
    · exact hemm _ _

theorem filed_of_run {r : UInt8} {es : List (Env × MMEEvent)} (hrun : Run (step P) Proper (init r) es w) :
    w.AllFiled :=
  hrun.invariant (fun _ ev _ ht hproper hstep => (filedIff_step ht ev _ hstep).1 hproper) (init_filed r)

/-! ## Runs -/

/-- **The tables in every run.** In every run of proper events the tables are consistent in every state, and the
next event leaves them consistent if and only if it is proper. -/
theorem ecm_tables_consistent {r : UInt8} {es : List (Env × MMEEvent)} {w : MME}
    (hrun : Run (step P) Proper (init r) es w) :
    w.Consistent ∧ ∀ ev v, w.step P ev = .ok v → (v.Consistent ↔ w.Proper ev) := by
  have hw := filed_of_run hrun
  refine ⟨hw.consistent, fun ev v hv => ?_⟩
  obtain ⟨hfiled, hnot⟩ := filedIff_step hw ev v hv
  exact ⟨fun hcons => by_contra fun hproper => hnot hproper hcons, fun hproper => (hfiled hproper).consistent⟩

namespace Sample

/-- An AttachRequest of the UE with the given last octet of its IMSI. -/
def attachRequest (o : UInt8) : List UInt8 :=
  [0x07, 0x41, 0x71, 0x08, 0x29, 0x80, 0x39, 0x00, 0x00, 0x00, 0x00, o, 0x02, 0xe0, 0xe0, 0x00, 0x04, 0x02, 0x01, 0xd0,
    0x11]

/-- An eNodeB connects, and two UEs send an AttachRequest with the given eNB identifiers. -/
def twoUEs (j j' : UInt32) : List (Env × MMEEvent) :=
  [(Sample.env .manyRows, .accept),
    (Sample.env .manyRows, .s1ap 0 { S1APMsg.new .s1Setup .initiatingMessage with
      supportedTAs := some true, globalENBId := true } 0),
    (Sample.env (.vector (Sample.quadruplet (List.replicate 32 0))), initialUEMessage j none (attachRequest 0x10)),
    (Sample.env (.vector (Sample.quadruplet (List.replicate 32 0))), initialUEMessage j' none (attachRequest 0x20))]

end Sample

/-- Two UEs with two identifiers, and a reset of one of them by its MME identifier. -/
theorem ecm_tables_consistent_reset :
    ∃ w v, Run (step Prims.zeroKasme) Proper (init 0) (Sample.twoUEs 7 8) w ∧
      w.step Prims.zeroKasme (Sample.env .manyRows, .s1ap 0 { S1APMsg.new .reset .initiatingMessage with
        resetType := some (.partOfS1Interface [⟨none, some 1⟩]) } 0) = .ok v ∧
      w.Consistent ∧ v.Consistent ∧ (w.ids 1).isSome ∧ v.ids 1 = none := by
  simp only [exists_and_left]
  refine Run.exists_step_of_exec (fun w ev v => w.Proper ev ∧ (w.ids 1).isSome ∧ v.ids 1 = none) (by decide +kernel) ?_
  rintro w v hrun hv ⟨hproper, hw1, hv1⟩
  obtain ⟨hw, hstep⟩ := ecm_tables_consistent hrun
  exact ⟨hw, (hstep _ v hv).mpr hproper, hw1, hv1⟩

/-- Two UEs with one identifier: the session of the first one is not found any more. -/
theorem ecm_tables_inconsistent :
    ∃ w, Run (step Prims.zeroKasme) (fun _ _ => True) (init 0) (Sample.twoUEs 7 7) w ∧
      w.ids 1 = some ⟨0, 1, 7⟩ ∧ (w.s1AssocGetECMSession 0 7).toOption = some (some 3) ∧ ¬ w.Consistent := by
  refine Run.exists_of_exec (fun w => w.ids 1 = some ⟨0, 1, 7⟩ ∧
    (w.s1AssocGetECMSession 0 7).toOption = some (some 3)) (by decide +kernel) ?_
  rintro w - ⟨hids, hget⟩
  refine ⟨hids, hget, fun hcons => ?_⟩
  obtain ⟨⟨⟩, hs, ⟨⟩⟩ := ids_eq_some.mp hids
  have hfound : w.s1AssocGetECMSession 0 7 = .ok (some 1) := hcons.byENBUEId 1 _ hs
  rw [hfound] at hget
  cases hget

/-! ## Resets in every run -/

/-- What a reset of the association `a` should do: it leaves everything else alone, and a reset of the whole
association ends all of its sessions, whose MME identifiers, and no others, are free again. -/
structure ResetIsolates (a : Nat) (ty : ResetType) (w v : MME) : Prop where
  spares : Spares a w v
  all : ty = .s1Interface → (∀ i s, v.ecms i = some s → s.assoc ≠ a) ∧
    (∃ t, v.assocs a = some t ∧ t.ecmSessions = []) ∧
    ∀ m, m ∈ v.s1LocalIDs ↔ m ∈ w.s1LocalIDs ∧ ∀ i s, w.ecms i = some s → s.assoc = a → s.mmeUEId ≠ m

theorem post_processReset (h : w.AllFiled) (ht : w.assocs a = some t) {msg : S1APMsg} {ty : ResetType}
    (hty : msg.resetType = some ty) :
    Post (w.processReset x a t msg) fun v => ResetIsolates a ty w v ↔ w.ResetOf a ty := by
  have ha : (w.assocs a).isSome := by
    rw [ht]
    rfl
  cases ty with
  | s1Interface =>
    refine (filed_resetAll h ht hty).mono fun v ⟨_, hclears, hassoc⟩ => ⟨fun _ => trivial, fun _ => ⟨hclears.spares, fun _ => ?_⟩⟩
    refine ⟨fun i s hs hsa => hclears.none i ⟨_, ids_of_ecms hs, hsa⟩, ⟨_, hassoc, rfl⟩, hclears.localIDs⟩
  | partOfS1Interface items =>
    rw [processReset, hty]
    by_cases hitems : ∀ item ∈ items, w.ItemOf a item
    · exact (filed_resetItems items h ha hitems).mono fun v hv => ⟨fun _ => hitems, fun _ => ⟨hv.2.1, nofun⟩⟩
    · refine (stale_of_items items h ha hitems).mono ?_
      rintro v ⟨id, s, hs, hsa, hstale⟩
      refine ⟨fun hiso => ?_, fun hof => absurd hof hitems⟩
      -- the session of another association is gone
      have hkept := hiso.spares.kept id s hs hsa
      rw [hstale.gone] at hkept
      cases hkept

/-- **Resets in every run.** In every state that a run of proper events reaches, a reset of an active association
that is processed is isolated if and only if no item of it names a session of another association by its MME
identifier alone. -/
theorem reset_isolates_iff {r : UInt8} {es : List (Env × MMEEvent)} {w v : MME}
    (hrun : Run (step P) Proper (init r) es w) {x : Env} {a : Nat} {t : S1Assoc} (ht : w.assocs a = some t)
    (hactive : t.active = true) {msg : S1APMsg} (hmsg : msg.procedureCode = .reset) {ty : ResetType}
    (hty : msg.resetType = some ty) (hv : w.step P (x, .s1ap a msg t.nonueRsid) = .ok v) :
    ResetIsolates a ty w v ↔ w.ResetOf a ty := by
  have hstep : w.step P (x, .s1ap a msg t.nonueRsid) = w.processReset x a t msg := by
    rw [step, deref_eq_ok.mpr ⟨a, rfl, ht⟩, ok_bind, if_pos hactive, activeProcessMsg, if_pos rfl]
    simp only [hmsg]
  exact post_processReset (filed_of_run hrun) ht hty v (hstep.symm.trans hv)

namespace Sample

/-- Two eNodeBs connect, and a UE of the first one sends an AttachRequest. -/
def twoENBs : List (Env × MMEEvent) :=
  [(Sample.env .manyRows, .accept),
    (Sample.env .manyRows, .s1ap 0 { S1APMsg.new .s1Setup .initiatingMessage with
      supportedTAs := some true, globalENBId := true } 0),
    (Sample.env .manyRows, .accept),
    (Sample.env .manyRows, .s1ap 1 { S1APMsg.new .s1Setup .initiatingMessage with
      supportedTAs := some true, globalENBId := true } 0),
    (Sample.env (.vector (Sample.quadruplet (List.replicate 32 0))), initialUEMessage 7 none (attachRequest 0x10))]

def reset (ty : ResetType) : S1APMsg := { S1APMsg.new .reset .initiatingMessage with resetType := some ty }

end Sample

/-- The first eNodeB resets all of its sessions. -/
theorem reset_isolates_all :
    ∃ w v, Run (step Prims.zeroKasme) Proper (init 0) Sample.twoENBs w ∧
      w.step Prims.zeroKasme (Sample.env .manyRows, .s1ap 0 (Sample.reset .s1Interface) 0) = .ok v ∧
      w.ids 2 = some ⟨0, 1, 7⟩ ∧ ResetIsolates 0 .s1Interface w v := by
  simp only [exists_and_left]
  refine Run.exists_step_of_exec (fun w _ _ => w.ids 2 = some ⟨0, 1, 7⟩ ∧
    (w.assocs 0).map (fun t => (t.active, t.nonueRsid)) = some (true, 0)) (by decide +kernel) ?_
  rintro w v hrun hv ⟨hids, hassoc⟩
  obtain ⟨⟨active, nonueRsid, l⟩, ht, heq⟩ := Option.map_eq_some_iff.mp hassoc
  obtain ⟨rfl, rfl⟩ := Prod.mk.inj heq
  exact ⟨hids, (reset_isolates_iff hrun ht rfl rfl rfl hv).mpr trivial⟩

/-- The second eNodeB resets a session of the first one by its MME identifier. -/
theorem reset_of_other :
    ∃ w v, Run (step Prims.zeroKasme) Proper (init 0) Sample.twoENBs w ∧
      w.step Prims.zeroKasme (Sample.env .manyRows,
        .s1ap 1 (Sample.reset (.partOfS1Interface [⟨none, some 1⟩])) 0) = .ok v ∧
      w.ids 2 = some ⟨0, 1, 7⟩ ∧ v.ids 2 = none ∧
      ¬ ResetIsolates 1 (.partOfS1Interface [⟨none, some 1⟩]) w v := by
  simp only [exists_and_left]
  refine Run.exists_step_of_exec (fun w _ v => w.ids 2 = some ⟨0, 1, 7⟩ ∧ v.ids 2 = none) (by decide +kernel) ?_
  rintro w v - - ⟨hids, hgone⟩
  refine ⟨hids, hgone, fun hiso => ?_⟩
  obtain ⟨⟨⟩, hs, ⟨⟩⟩ := ids_eq_some.mp hids
  rw [ids_of_ecms (hiso.spares.kept 2 _ hs Nat.zero_ne_one)] at hgone
  cases hgone

end MME

end AaltoMME
