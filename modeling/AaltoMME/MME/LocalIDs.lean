import Mathlib.Order.Bounds.Defs
import AaltoMME.MME.Consistency

/-!
# MME UE S1AP identifiers

`mme_newLocalUEid` takes the least identifier that is not in `s1_localIDs`, and the destructor of a session gives its
identifier back.  A session ends on several paths, as the value of a table that is removed or replaced.  `Releases`
says what all of them do to the identifiers, `Allots` what a new session does.
-/

namespace AaltoMME

open Base NAS PtrTable

namespace MME

variable {P : Prims} {x : Env} {w v u : MME} {a i id : Nat} {m : UInt32} {s : ECMSession}

/-! ## The search -/

/-- The loop of `mme_newLocalUEid` does not pass over an identifier. -/
theorem firstFree_le {ids : List UInt32} {j : UInt32} (hj : j ∉ ids) (n : Nat) (i : UInt32)
    (hij : i.toNat ≤ j.toNat) (hjn : j.toNat < i.toNat + n) : (firstFree ids n i).toNat ≤ j.toNat := by
  induction n generalizing i with
  | zero => omega
  | succ n ih =>
    rw [firstFree]
    split
    · rename_i hi
      have hne : i.toNat ≠ j.toNat := fun h => hj (UInt32.toNat_inj.mp h ▸ hi)
      have hlt : j.toNat < 2 ^ 32 := j.toNat_lt
      have hsucc : (i + 1).toNat = i.toNat + 1 := by
        rw [UInt32.toNat_add]
        exact Nat.mod_eq_of_lt (by simp only [UInt32.reduceToNat]; omega)
      exact ih (i + 1) (by omega) (by omega)
    · exact hij

/-- The identifiers that `mme_newLocalUEid` chooses from. -/
def FreeLocalID (w : MME) (m : UInt32) : Prop := 1 ≤ m.toNat ∧ m.toNat ≤ maxUE ∧ m ∉ w.s1LocalIDs

theorem newLocalUEid_of_free (h : w.FreeLocalID m) : IsLeast { m | w.FreeLocalID m } w.mmeNewLocalUEid.2 := by
  have hspec : ∀ {j}, w.FreeLocalID j → w.FreeLocalID w.mmeNewLocalUEid.2 ∧ w.mmeNewLocalUEid.2.toNat ≤ j.toNat := by
    rintro j ⟨hpos, hle, hj⟩
    have hlt : j.toNat < (1 : UInt32).toNat + maxUE := by
      simp only [UInt32.reduceToNat]
      omega
    obtain ⟨hmem, hge, hlt'⟩ := firstFree_spec hj maxUE 1 hpos hlt
    simp only [UInt32.reduceToNat] at hge hlt'
    exact ⟨⟨hge, by simp only [mmeNewLocalUEid]; omega, hmem⟩, firstFree_le hj maxUE 1 hpos hlt⟩
  exact ⟨(hspec h).1, fun j hj => UInt32.le_iff_toNat_le.mpr (hspec hj).2⟩

theorem newLocalUEid_eq_zero_iff : w.mmeNewLocalUEid.2 = 0 ↔ ∀ m, ¬ w.FreeLocalID m := by
  constructor
  · intro hzero m hm
    have hfree := (newLocalUEid_of_free hm).1
    rw [hzero] at hfree
    cases hfree.1
  · intro hnone
    refine firstFree_eq_zero maxUE 1 (by decide) fun j hj hlt => ?_
    by_contra hmem
    simp only [UInt32.reduceToNat] at hj hlt
    exact hnone j ⟨hj, by omega, hmem⟩

/-! ## Sessions and identifiers -/

/-- The identifier of a live session. -/
def localID (w : MME) (i : Nat) : Option UInt32 := (w.ecms i).map (·.mmeUEId)

theorem localID_eq_some : w.localID i = some m ↔ ∃ s, w.ecms i = some s ∧ s.mmeUEId = m := Option.map_eq_some_iff

theorem localID_update {o : Option ECMSession} (h : v.ecms = Function.update w.ecms id o) :
    v.localID = Function.update w.localID id (o.map (·.mmeUEId)) := by
  funext j
  rw [localID, h, Function.update_apply, Function.update_apply]
  split <;> rfl

/-- The identifiers in use are those of the live sessions. -/
structure Allotted (w : MME) : Prop where
  fresh : ∀ i, w.fresh ≤ i → w.localID i = none
  nodup : w.s1LocalIDs.Nodup
  mem : ∀ m, m ∈ w.s1LocalIDs ↔ m ≠ 0 ∧ ∃ i, w.localID i = some m
  one : ∀ i j m, m ≠ 0 → w.localID i = some m → w.localID j = some m → i = j

theorem init_allotted (r : UInt8) : (init r).Allotted where
  fresh _ _ := rfl
  nodup := List.nodup_nil
  mem m := by
    refine ⟨fun hm => absurd hm List.not_mem_nil, ?_⟩
    rintro ⟨-, i, hi⟩
    cases hi
  one i j m _ hi := by cases hi

/-- A session comes, with the identifier that `mme_newLocalUEid` returns. -/
structure Allots (w v : MME) : Prop where
  localID : v.localID = Function.update w.localID w.fresh (some w.mmeNewLocalUEid.2)
  localIDs : v.s1LocalIDs = w.mmeNewLocalUEid.1.s1LocalIDs
  fresh : w.fresh < v.fresh

/-- Sessions may end, each of which gives its identifier back. -/
inductive Releases : MME → MME → Prop
  | same {w v : MME} (hids : v.localID = w.localID) (hset : v.s1LocalIDs = w.s1LocalIDs) (hfresh : w.fresh ≤ v.fresh) :
    Releases w v
  | close {w v : MME} {id : Nat} {m : UInt32} (hid : w.localID id = some m)
    (hids : v.localID = Function.update w.localID id none) (hset : v.s1LocalIDs = w.s1LocalIDs.erase m)
    (hfresh : v.fresh = w.fresh) : Releases w v
  | trans {w v u : MME} (h : Releases w v) (h' : Releases v u) : Releases w u

namespace Releases

theorem refl (w : MME) : w.Releases w := .same rfl rfl le_rfl

theorem old (h : w.Releases v) (hi : v.localID i = some m) : w.localID i = some m := by
  induction h with
  | same hids => exact hids ▸ hi
  | close hid hids =>
    rw [hids, Function.update_apply] at hi
    split at hi
    · cases hi
    · exact hi
  | trans _ _ ih ih' => exact ih (ih' hi)

theorem allotted (h : w.Releases v) (hw : w.Allotted) : v.Allotted := by
  induction h with
  | same hids hset hfresh =>
    obtain ⟨hnone, hnodup, hmem, hone⟩ := hw
    refine ⟨fun i hi => ?_, ?_, ?_, ?_⟩
    · rw [hids]
      exact hnone i (Nat.le_trans hfresh hi)
    · rw [hset]
      exact hnodup
    · rw [hset, hids]
      exact hmem
    · rw [hids]
      exact hone
  | @close w v id m hid hids hset hfresh =>
    have hold : ∀ {i k}, v.localID i = some k ↔ i ≠ id ∧ w.localID i = some k := by
      intro i k
      rw [hids, Function.update_apply]
      split
      · rename_i heq
        exact ⟨nofun, fun h => absurd heq h.1⟩
      · rename_i hne
        exact ⟨fun h => ⟨hne, h⟩, And.right⟩
    refine ⟨fun i hi => ?_, ?_, fun k => ?_, fun i j k hk hi hj => ?_⟩
    · rw [hids, Function.update_apply]
      split
      · rfl
      · exact hw.fresh i (hfresh ▸ hi)
    · rw [hset]
      exact hw.nodup.erase m
    · rw [hset, hw.nodup.mem_erase_iff, hw.mem]
      constructor
      · rintro ⟨hne, hk, i, hi⟩
        refine ⟨hk, i, hold.mpr ⟨?_, hi⟩⟩
        rintro rfl
        exact hne (Option.some.inj (hi.symm.trans hid))
      · rintro ⟨hk, i, hi⟩
        obtain ⟨hne, hi⟩ := hold.mp hi
        refine ⟨?_, hk, i, hi⟩
        -- another session with the identifier of the one that ends
        rintro rfl
        exact hne (hw.one i id k hk hi hid)
    · exact hw.one i j k hk (hold.mp hi).2 (hold.mp hj).2
  | trans _ _ ih ih' => exact ih' (ih hw)

theorem setECM (h : w.localID id = some s.mmeUEId) : w.Releases (w.setECM id s) := by
  refine .same ?_ rfl le_rfl
  rw [localID_update rfl, Option.map_some, ← h, Function.update_eq_self]

theorem of_sameTables (h : w.SameTables v) : w.Releases v := by
  refine .same ?_ h.localIDs (Nat.le_of_eq h.fresh.symm)
  unfold localID
  rw [h.ecms]

end Releases

theorem Allots.allotted (h : w.Allots v) (hw : w.Allotted) : v.Allotted := by
  obtain ⟨hids, hset, hfresh⟩ := h
  have hset : v.s1LocalIDs =
      if w.mmeNewLocalUEid.2 = 0 then w.s1LocalIDs else w.mmeNewLocalUEid.2 :: w.s1LocalIDs := by
    rw [hset]
    by_cases hzero : firstFree w.s1LocalIDs maxUE 1 = 0
    · simp [mmeNewLocalUEid, hzero]
    · simp [mmeNewLocalUEid, hzero]
  generalize hm : w.mmeNewLocalUEid.2 = m at hids hset
  have hself : v.localID w.fresh = some m := by rw [hids, Function.update_self]
  have hother : ∀ {i}, i ≠ w.fresh → v.localID i = w.localID i := fun hi => by rw [hids, Function.update_of_ne hi]
  have hne : ∀ {i k}, w.localID i = some k → i ≠ w.fresh := by
    rintro _ _ hi rfl
    cases (hw.fresh _ (Nat.le_refl _)).symm.trans hi
  -- the new identifier is no session's
  have hnew : m ≠ 0 → m ∉ w.s1LocalIDs := by
    intro hne
    by_cases hex : ∃ j, w.FreeLocalID j
    · obtain ⟨j, hj⟩ := hex
      exact hm ▸ (newLocalUEid_of_free hj).1.2.2
    · exact absurd (hm ▸ newLocalUEid_eq_zero_iff.mpr fun j hj => hex ⟨j, hj⟩) hne
  refine ⟨fun i hi => ?_, ?_, fun k => ?_, fun i j k hk hi hj => ?_⟩
  · rw [hother (Nat.ne_of_gt (Nat.lt_of_lt_of_le hfresh hi))]
    exact hw.fresh i (Nat.le_of_lt (Nat.lt_of_lt_of_le hfresh hi))
  · rw [hset]
    split
    · exact hw.nodup
    · exact List.nodup_cons.mpr ⟨hnew ‹_›, hw.nodup⟩
  · have hlive : (∃ i, v.localID i = some k) ↔ k = m ∨ ∃ i, w.localID i = some k := by
      constructor
      · rintro ⟨i, hi⟩
        by_cases hif : i = w.fresh
        · rw [hif, hself] at hi
          exact .inl (Option.some.inj hi).symm
        · exact .inr ⟨i, (hother hif).symm.trans hi⟩
      · rintro (rfl | ⟨i, hi⟩)
        · exact ⟨_, hself⟩
        · exact ⟨i, (hother (hne hi)).trans hi⟩
    rw [hset, hlive]
    split
    · rename_i hzero
      rw [hw.mem]
      refine and_congr_right fun hk => ⟨.inr, fun h => h.resolve_left ?_⟩
      rintro rfl
      exact hk hzero
    · rename_i hpos
      rw [List.mem_cons, hw.mem]
      constructor
      · rintro (rfl | ⟨hk, h⟩)
        · exact ⟨hpos, .inl rfl⟩
        · exact ⟨hk, .inr h⟩
      · rintro ⟨hk, rfl | h⟩
        · exact .inl rfl
        · exact .inr ⟨hk, h⟩
  · have hin : ∀ {j}, v.localID j = some k → j ≠ w.fresh → k ∈ w.s1LocalIDs := fun hj hne =>
      (hw.mem k).mpr ⟨hk, _, (hother hne).symm.trans hj⟩
    have hfirst : ∀ {j}, v.localID j = some k → j ≠ w.fresh → k ≠ m := by
      rintro _ hj hne rfl
      exact hnew hk (hin hj hne)
    by_cases hif : i = w.fresh
    · subst hif
      obtain rfl := Option.some.inj (hself.symm.trans hi)
      by_contra hij
      exact hfirst hj (Ne.symm hij) rfl
    · by_cases hjf : j = w.fresh
      · subst hjf
        obtain rfl := Option.some.inj (hself.symm.trans hj)
        exact absurd rfl (hfirst hi hif)
      · exact hw.one i j k hk ((hother hif).symm.trans hi) ((hother hjf).symm.trans hj)

/-! ## The passes -/

theorem releases_onEMM (p : Option Nat) (f : Env → EMMCtx → Outcome EMMCtx) : Post (w.onEMM x p f) w.Releases :=
  (sameTables_onEMM p f).mono fun _ => .of_sameTables

theorem releases_ecmSessionFree : Post (w.ecmSessionFree id) w.Releases := by
  refine .bind_of_eq fun s hs => ?_
  obtain ⟨_, ⟨⟩, hs⟩ := deref_eq_ok.mp hs
  split
  · exact .error
  · refine .of_bind fun c => .of_bind fun _ => .ok ?_
    exact .close (localID_eq_some.mpr ⟨s, hs, rfl⟩) (localID_update (o := none) rfl) rfl rfl

theorem releases_mmeDeregisterECM (id : Nat) : Post (w.mmeDeregisterECM id) w.Releases := by
  refine .of_bind fun k => .of_bind fun ⟨t, old⟩ => ?_
  have htable : w.Releases { w with ecmSessionsByLocalID := t } := .same rfl rfl le_rfl
  cases old with
  | none => exact .ok htable
  | some o => exact releases_ecmSessionFree.mono fun v hv => htable.trans hv

theorem releases_mmeRegisterECM (id : Nat) : Post (w.mmeRegisterECM id) w.Releases := by
  refine .of_bind fun k => .of_bind fun ⟨t, old⟩ => ?_
  have htable : w.Releases { w with ecmSessionsByLocalID := t } := .same rfl rfl le_rfl
  cases old with
  | none => exact .ok htable
  | some o => exact releases_ecmSessionFree.mono fun v hv => htable.trans hv

theorem releases_setAssoc (t : S1Assoc) : w.Releases (w.setAssoc a t) := .same rfl rfl le_rfl

theorem releases_s1AssocRegisterECMSession (a id : Nat) : Post (w.s1AssocRegisterECMSession a id) w.Releases :=
  Post.of_bind fun _ => .of_bind fun _ => .of_bind fun _ => .ok (releases_setAssoc _)

theorem releases_s1AssocDeregisterECMSession (a id : Nat) :
    Post (w.s1AssocDeregisterECMSession a id) fun v => w.Releases v ∧ v.localID = w.localID :=
  Post.of_bind fun _ => .of_bind fun _ => .of_bind fun _ => .ok ⟨releases_setAssoc _, rfl⟩

theorem releases_foldlM {α : Type} {f : MME → α → Outcome MME} (hf : ∀ w b, Post (f w b) w.Releases) (l : List α) :
    Post (l.foldlM f w) w.Releases :=
  Post.foldlM (I := w.Releases) (fun v b hv => (hf v b).mono fun _ hu => hv.trans hu) l (.refl w)

theorem releases_s1AssocFree (a : Nat) : Post (w.s1AssocFree x a) w.Releases := by
  refine .of_bind fun t => .bind (releases_foldlM (fun _ id => releases_mmeDeregisterECM id) _) fun v hv => ?_
  exact .ok (hv.trans (.same rfl rfl le_rfl))

theorem releases_s1AssocResetECM (id : Nat) : Post (w.s1AssocResetECM x id) w.Releases :=
  Post.bind (.of_bind fun _ => releases_onEMM _ _) fun _ hv =>
    (releases_mmeDeregisterECM id).mono fun _ hu => hv.trans hu

theorem releases_resetItem (item : ResetItem) : Post (w.resetItem x a item) w.Releases := by
  have hreset : ∀ id, Post (w.s1AssocDeregisterECMSession a id >>= fun w => w.s1AssocResetECM x id) w.Releases :=
    fun id => .bind (releases_s1AssocDeregisterECMSession a id) fun v hv =>
      (releases_s1AssocResetECM id).mono fun _ hu => hv.1.trans hu
  obtain ⟨_ | i, _ | j⟩ := item
  · exact .ok (.refl w)
  all_goals
    refine .of_bind fun found => ?_
    cases found with
    | none => exact .ok (.refl w)
    | some id => exact hreset id

theorem releases_processReset (t : S1Assoc) (msg : S1APMsg) : Post (w.processReset x a t msg) w.Releases := by
  refine .of_bind fun ty => ?_
  cases ty with
  | s1Interface =>
    refine .bind (releases_foldlM (fun _ id => releases_s1AssocResetECM id) _) fun v hv => ?_
    exact .ok (hv.trans (releases_setAssoc _))
  | partOfS1Interface items => exact releases_foldlM (fun _ item => releases_resetItem item) items

theorem releases_bindEMM (h : w.localID id = some s.mmeUEId) (found : Option Nat) :
    Post (w.bindEMM x id s found) fun r => w.Releases r.1 ∧ r.1.localID = w.localID := by
  have hset : ∀ e, (w.setECM id { s with emm := some e }).localID = w.localID := by
    intro e
    rw [localID_update (o := some { s with emm := some e }) rfl, Option.map_some, ← h, Function.update_eq_self]
  cases found with
  | none => exact .ok ⟨.same (hset _) rfl (Nat.le_succ _), hset _⟩
  | some e =>
    refine .bind (sameTables_onEMM _ _) fun v hv => .ok ?_
    have hids : v.localID = w.localID := by
      rw [← hset e]
      unfold localID
      rw [hv.ecms]
    exact ⟨.trans (.same (hset e) rfl (Nat.le_refl _)) (.of_sameTables hv), hids⟩

theorem releases_idleProcessMsg (h : w.localID id = some s.mmeUEId) (msg : S1APMsg) (rSid : Nat) :
    Post (w.idleProcessMsg P x id s msg rSid) w.Releases := by
  refine .ite (fun _ => ?_) fun _ => .ok (.refl w)
  refine .of_bind fun j => .of_bind fun ⟨buf, size⟩ => .of_bind fun ⟨sn, tAC⟩ => .of_bind fun found => ?_
  refine .bind (releases_bindEMM (s := { s with
    eNBUEId := j, sn, tAC
    rSid := if rSid ≠ 0 then rSid else s.rSid
    rSidValid := rSid ≠ 0 || s.rSidValid }) h found) fun ⟨v, e⟩ ⟨hv, hids⟩ => ?_
  refine (releases_onEMM _ _).mono fun u hu => (hv.trans (.setECM ?_)).trans hu
  exact (congrFun hids id).trans h

theorem releases_connectedProcedure (hs : w.ecms id = some s) (msg : S1APMsg) :
    Post (w.connectedProcedure P x id s msg) w.Releases := by
  have hid : w.localID id = some s.mmeUEId := localID_eq_some.mpr ⟨s, hs, rfl⟩
  unfold connectedProcedure
  split
  · have hset : w.Releases (w.setECM id { s with causeRelease := false }) := .setECM hid
    exact .bind (releases_s1AssocDeregisterECMSession _ id) fun v ⟨hv, _⟩ =>
      (releases_mmeDeregisterECM id).mono fun _ hu => (hset.trans hv).trans hu
  · exact .of_bind fun _ => .ite (fun _ => releases_onEMM _ _) fun _ => .ok (.refl w)
  · exact .of_bind fun _ => .ite (fun _ => .of_bind fun _ => releases_onEMM _ _) fun _ => .ok (.refl w)
  · have hset : w.Releases (w.setECM id { s with causeRelease := msg.cause }) := .setECM hid
    exact (releases_onEMM _ _).mono fun _ hv => hset.trans hv
  · exact .ok (.refl w)

theorem releases_ecmSessionProcessMsg (id : Nat) (msg : S1APMsg) (rSid : Nat) :
    Post (w.ecmSessionProcessMsg P x id msg rSid) w.Releases := by
  refine .bind_of_eq fun s hs => ?_
  obtain ⟨_, ⟨⟩, hs⟩ := deref_eq_ok.mp hs
  have hid : w.localID id = some s.mmeUEId := localID_eq_some.mpr ⟨s, hs, rfl⟩
  split
  · exact releases_idleProcessMsg hid msg rSid
  · refine .ite (fun _ => .ok (.refl w)) fun _ => ?_
    have hset : w.Releases (w.setECM id { s with rSid, rSidValid := true }) := .setECM hid
    exact (releases_connectedProcedure (Function.update_self ..) msg).mono fun _ hv => hset.trans hv

theorem releases_pathSwitchRequest (msg : S1APMsg) (rSid : Nat) :
    Post (w.pathSwitchRequest P x a msg rSid) w.Releases := by
  refine .of_bind fun i => .of_bind fun p => ?_
  cases p with
  | none => exact .error
  | some id =>
    refine .bind_of_eq fun s hs => .of_bind fun _ => ?_
    obtain ⟨_, ⟨⟩, hs⟩ := deref_eq_ok.mp hs
    have hid : w.localID id = some s.mmeUEId := localID_eq_some.mpr ⟨s, hs, rfl⟩
    refine .bind (releases_s1AssocDeregisterECMSession _ id) fun v ⟨hv, hvid⟩ => .of_bind fun j => ?_
    refine .bind (Q := fun u => w.Releases u ∧ u.localID id = some s.mmeUEId) ?_ fun u ⟨hu, huid⟩ => ?_
    · refine .of_bind fun _ => .of_bind fun _ => .of_bind fun _ => .ok ⟨?_, ?_⟩
      · have hset : v.Releases (v.setECM id { s with assoc := a, rSid, eNBUEId := j }) :=
          .setECM ((congrFun hvid id).trans hid)
        exact (hv.trans hset).trans (releases_setAssoc _)
      · exact localID_eq_some.mpr ⟨_, Function.update_self .., rfl⟩
    · refine .of_bind fun ⟨sn, tAC⟩ => .ite (fun _ => .error) fun _ => ?_
      have hset : u.Releases (u.setECM id { s with assoc := a, rSid, eNBUEId := j, sn, tAC }) := .setECM huid
      exact (releases_onEMM _ _).mono fun _ hr => (hu.trans hset).trans hr

/-- `ecmSession_init`: a session comes; registering it may end another one that has 0 as well. -/
theorem allots_ecmSessionInit (msg : S1APMsg) (rSid : Nat) :
    Post (w.ecmSessionInit P x a msg rSid) fun v => ∃ u, w.Allots u ∧ u.Releases v := by
  have hids : w.mmeNewLocalUEid.1.localID = w.localID ∧ w.mmeNewLocalUEid.1.fresh = w.fresh := by
    simp only [mmeNewLocalUEid]
    split <;> exact ⟨rfl, rfl⟩
  unfold ecmSessionInit
  generalize hnew : w.mmeNewLocalUEid = r at hids
  obtain ⟨w', m⟩ := r
  obtain ⟨hids, hfresh⟩ := hids
  let s : ECMSession := ⟨a, none, .idle, false, rSid, m, 0, [0, 0, 0], [0, 0], false⟩
  have hallots : w.Allots ({ w' with fresh := w'.fresh + 1 }.setECM w'.fresh s) := by
    refine ⟨?_, ?_, ?_⟩
    · have hupdate : ({ w' with fresh := w'.fresh + 1 }.setECM w'.fresh s).localID =
          Function.update w'.localID w'.fresh ((some s).map (·.mmeUEId)) := localID_update rfl
      rw [hupdate, hids, hfresh, hnew]
      rfl
    · rw [hnew]
      rfl
    · exact Nat.lt_succ_of_le (Nat.le_of_eq hfresh.symm)
  refine .bind (releases_idleProcessMsg (localID_eq_some.mpr ⟨s, Function.update_self .., rfl⟩) msg rSid)
    fun v hv => .bind (releases_s1AssocRegisterECMSession a _) fun v' hv' => ?_
  exact (releases_mmeRegisterECM _).mono fun u hu => ⟨_, hallots, (hv.trans hv').trans hu⟩

/-! ## Every run -/

theorem post_step (e : Env × MMEEvent) :
    Post (w.step P e) fun v => w.Releases v ∨ ∃ u, w.Allots u ∧ u.Releases v := by
  obtain ⟨x, ev⟩ := e
  cases ev with
  | accept => exact .ok (.inl (.same rfl rfl (Nat.le_succ _)))
  | closed a => exact (releases_s1AssocFree a).mono fun _ => .inl
  | timer e code => exact (releases_onEMM (some e) fun env c => c.timerExpires P env code).mono fun _ => .inl
  | s11 pkt =>
    unfold step
    dsimp only
    split
    · exact .ok (.inl (.refl w))
    · exact (releases_onEMM _ _).mono fun _ => .inl
  | s1ap a msg rSid =>
    refine .of_bind fun t => .ite (fun _ => ?_) fun _ => ?_
    · refine .ite (fun _ => ?_) fun _ => ?_
      · split
        · exact (releases_processReset t msg).mono fun _ => .inl
        · exact (allots_ecmSessionInit msg rSid).mono fun _ => .inr
        · exact (releases_pathSwitchRequest msg rSid).mono fun _ => .inl
        · exact .ok (.inl (.refl w))
      · split
        · exact (allots_ecmSessionInit msg rSid).mono fun _ => .inr
        · exact (releases_pathSwitchRequest msg rSid).mono fun _ => .inl
        · refine .of_bind fun j => .of_bind fun found => ?_
          cases found with
          | none => exact .ok (.inl (.refl w))
          | some id =>
            refine .of_bind fun _ => .of_bind fun k => .ite (fun _ => .ok (.inl (.refl w))) fun _ => ?_
            exact (releases_ecmSessionProcessMsg id msg rSid).mono fun _ => .inl
    · refine Post.mono ?_ fun _ => .inl
      have hset : w.Releases (w.setAssoc a { t with nonueRsid := rSid }) := releases_setAssoc _
      refine .ite (fun _ => .ok hset) fun _ => .ite (fun _ => .error) fun _ => ?_
      split
      · exact .ok hset
      · exact (releases_s1AssocFree a).mono fun _ hv => hset.trans hv
      · exact .ok (hset.trans (releases_setAssoc _))

/-- `s1_localIDs` is the set of the identifiers of the live sessions, which are distinct, and a new session gets the
least one that is left. -/
structure AllocatesIDs (w : MME) : Prop where
  ids : ∀ m, m ∈ w.s1LocalIDs ↔ m ≠ 0 ∧ ∃ i s, w.ecms i = some s ∧ s.mmeUEId = m
  one : ∀ i j s t, w.ecms i = some s → w.ecms j = some t → s.mmeUEId = t.mmeUEId → s.mmeUEId ≠ 0 → i = j
  least : w.mmeNewLocalUEid.2 ≠ 0 → IsLeast { m | w.FreeLocalID m } w.mmeNewLocalUEid.2
  exhausted : w.mmeNewLocalUEid.2 = 0 ↔ ∀ m : UInt32, 1 ≤ m.toNat → m.toNat ≤ maxUE → m ∈ w.s1LocalIDs

theorem Allotted.allocatesIDs (h : w.Allotted) : w.AllocatesIDs where
  ids m := by simp only [h.mem, localID_eq_some]
  one i j s t hs ht heq hne :=
    h.one i j _ hne (localID_eq_some.mpr ⟨s, hs, rfl⟩) (localID_eq_some.mpr ⟨t, ht, heq.symm⟩)
  least hne := by
    obtain ⟨m, hm⟩ : ∃ m, w.FreeLocalID m := by
      by_contra hnone
      exact hne (newLocalUEid_eq_zero_iff.mpr fun m hm => hnone ⟨m, hm⟩)
    exact newLocalUEid_of_free hm
  exhausted := by
    rw [newLocalUEid_eq_zero_iff]
    refine forall_congr' fun m => ⟨fun h hpos hle => ?_, fun h ⟨hpos, hle, hm⟩ => hm (h hpos hle)⟩
    by_contra hm
    exact h ⟨hpos, hle, hm⟩

/-- In every run the identifiers are allotted, and every event that brings a session gives it the identifier of
`mme_newLocalUEid`. -/
theorem allocatesIDs_of_run {r : UInt8} {es : List (Env × MMEEvent)}
    (h : Run (step P) (fun _ _ => True) (init r) es w) :
    w.AllocatesIDs ∧ ∀ e v, w.step P e = .ok v → ∀ i s, w.ecms i = none → v.ecms i = some s →
      s.mmeUEId = w.mmeNewLocalUEid.2 := by
  have hallotted : w.Allotted := by
    refine h.invariant (I := Allotted) ?_ (init_allotted r)
    intro w e v hw _ hv
    rcases post_step e v hv with hv | ⟨u, hu, hv⟩
    · exact hv.allotted hw
    · exact hv.allotted (hu.allotted hw)
  refine ⟨hallotted.allocatesIDs, fun e v hv i s hnone hs => ?_⟩
  have hnone : w.localID i = none := by
    rw [localID, hnone]
    rfl
  have hs : v.localID i = some s.mmeUEId := localID_eq_some.mpr ⟨s, hs, rfl⟩
  rcases post_step e v hv with hv | ⟨u, hu, hv⟩
  · cases hnone.symm.trans (hv.old hs)
  · have hs := hv.old hs
    rw [hu.localID, Function.update_apply] at hs
    split at hs
    · exact (Option.some.inj hs).symm
    · cases hnone.symm.trans hs

/-- The UE attaches; its session has the identifier 1. -/
theorem allocatesIDs_of_run_attach :
    ∃ w, Run (step Prims.zeroKasme) (fun _ _ => True) (init 0) Sample.attach w ∧ w.s1LocalIDs = [1] ∧
      w.AllocatesIDs := by
  refine Run.exists_of_exec (·.s1LocalIDs = [1]) (by decide +kernel) fun w hrun hids => ?_
  exact ⟨hids, (allocatesIDs_of_run hrun).1⟩

end MME

end AaltoMME
