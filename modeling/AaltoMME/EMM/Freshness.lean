import AaltoMME.EMM.Completion

/-!
# The freshness of authentication vectors

`s6a_GetAuthInformation` and `s6a_SynchAuthVector` take the absence of an error for success.  `HSS_newAuthVec`
sets no error when the database has several rows for an IMSI, and `HSS_syncAuthVec` sets none when the number of
rows is wrong or when AUTS is invalid; then the callback sends the first quadruplet of the context once more.

A quadruplet is removed when the UE answers it correctly, or refuses it.  If the UE answers it wrongly, or not at
all, it stays, and the next authentication starts with it.
-/

namespace AaltoMME

open Base NAS

variable {P : Prims} {env : Env} {c d : EMMCtx} {e : Env × EMMEvent} {es : List (Env × EMMEvent)}

/-! ## The HSS interface -/

/-- The errors of the two functions of the HSS. -/
inductive DiameterError
  | unknownEPSSubscription
  | other
  deriving DecidableEq

/-- What a function of the HSS leaves: the context, the quadruplet that it appended, and its error. -/
structure HssReply where
  ctx : EMMCtx
  appended : Option AuthQuadruplet
  err : Option DiameterError

/-- What the two functions of the S6a interface do with it. -/
def HssReply.answer (r : HssReply) (cb : EMMCtx → Outcome EMMCtx) (errorCb : EMMCtx → DiameterError → Outcome EMMCtx) :
    Outcome EMMCtx :=
  match r.err with
  | some err => errorCb r.ctx err
  | none => cb r.ctx

namespace EMMCtx

section Hss

variable (env : Env) (c : EMMCtx)

/-- `HSS_newAuthVec`. -/
def hssNewAuthVec : Outcome HssReply :=
  match env.hssAuth with
  | .noResult => .error .nullDeref
  | .noRows => .ok ⟨c, none, some .unknownEPSSubscription⟩
  | .manyRows => .ok ⟨c, none, none⟩
  | .vector q => do
    let _ ← c.derefEcm env
    pure ⟨c.emmCtxSetNewAuthQuadruplet q, some q, none⟩

/-- `HSS_syncAuthVec`. -/
def hssSyncAuthVec : Outcome HssReply :=
  match env.hssSync with
  | .noResult => .error (.gError "'mysql_store_result()' returned NULL")
  | .wrongRows => .ok ⟨c, none, none⟩
  | .invalidAuts => do
    let _ ← c.firstAuthQuadruplet
    pure ⟨c, none, none⟩
  | .alreadySynchronized => do
    let _ ← c.firstAuthQuadruplet
    pure ⟨c.emmCtxFreeAuthQuadruplets, none, some .other⟩
  | .vector q => do
    let _ ← c.firstAuthQuadruplet
    let _ ← c.derefEcm env
    pure ⟨c.emmCtxFreeAuthQuadruplets.emmCtxSetNewAuthQuadruplet q, some q, none⟩

end Hss

theorem s6aGetAuthInformation_eq : c.s6aGetAuthInformation P env = (do
    let r ← c.hssNewAuthVec env
    r.answer (·.emmSendAuthRequest env) fun c err => c.emmProcessS6aError P env (err == .unknownEPSSubscription)) := by
  unfold s6aGetAuthInformation hssNewAuthVec
  cases env.hssAuth with
  | vector q =>
    cases c.derefEcm env with
    | ok => rfl
    | error => rfl
  | _ => rfl

theorem s6aSynchAuthVector_eq : c.s6aSynchAuthVector env = (do
    let r ← c.hssSyncAuthVec env
    r.answer (·.emmSendAuthRequest env) fun c _ => c.emmStop env) := by
  unfold s6aSynchAuthVector hssSyncAuthVec
  cases env.hssSync with
  | vector q =>
    cases c.firstAuthQuadruplet with
    | ok =>
      cases c.derefEcm env with
      | ok => rfl
      | error => rfl
    | error => rfl
  | invalidAuts =>
    cases c.firstAuthQuadruplet with
    | ok => rfl
    | error => rfl
  | alreadySynchronized =>
    cases c.firstAuthQuadruplet with
    | ok => rfl
    | error => rfl
  | _ => rfl

/-- The call reports success only if it appended a quadruplet. -/
def SuccessIsFresh (x : Outcome HssReply) : Prop :=
  ∀ r, x = .ok r → r.err = none → ∃ q, r.appended = some q ∧ r.ctx.authQuadrs.getLast? = some q

theorem not_successIsFresh {x : Outcome HssReply} (h : x = .ok ⟨c, none, none⟩) : ¬ SuccessIsFresh x := by
  intro hfresh
  obtain ⟨q, hq, -⟩ := hfresh _ h rfl
  cases hq

theorem successIsFresh_hssNewAuthVec_iff : SuccessIsFresh (c.hssNewAuthVec env) ↔ env.hssAuth ≠ .manyRows := by
  constructor
  · intro h hmany
    refine not_successIsFresh (c := c) ?_ h
    simp only [hssNewAuthVec, hmany]
  · intro hmany r hr herr
    unfold hssNewAuthVec at hr
    split at hr
    · cases hr
    · cases hr
      cases herr
    · exact absurd ‹_› hmany
    · obtain ⟨_, -, hr⟩ := bind_eq_ok.mp hr
      cases hr
      exact ⟨_, rfl, List.getLast?_concat⟩

theorem successIsFresh_hssSyncAuthVec_iff : SuccessIsFresh (c.hssSyncAuthVec env) ↔
    env.hssSync ≠ .wrongRows ∧ (env.hssSync = .invalidAuts → c.authQuadrs = []) := by
  constructor
  · intro h
    refine ⟨fun hrows => not_successIsFresh (c := c) ?_ h, fun hauts => ?_⟩
    · simp only [hssSyncAuthVec, hrows]
    · by_contra hne
      obtain ⟨q, rest, hlist⟩ := List.exists_cons_of_ne_nil hne
      refine not_successIsFresh (c := c) ?_ h
      simp [hssSyncAuthVec, hauts, firstAuthQuadruplet, hlist]
  · rintro ⟨hrows, hauts⟩ r hr herr
    unfold hssSyncAuthVec at hr
    split at hr
    · cases hr
    · exact absurd ‹_› hrows
    · simp [firstAuthQuadruplet, hauts ‹_›] at hr
    · obtain ⟨_, -, hr⟩ := bind_eq_ok.mp hr
      obtain rfl := Except.ok.inj hr
      cases herr
    · obtain ⟨_, -, hr⟩ := bind_eq_ok.mp hr
      obtain ⟨_, -, hr⟩ := bind_eq_ok.mp hr
      obtain rfl := Except.ok.inj hr
      exact ⟨_, rfl, List.getLast?_concat⟩

end EMMCtx

/-! ## Runs -/

/-- A context and the challenges of its Authentication Requests, newest first.  What a timer sends again is not
counted. -/
structure Challenging where
  ctx : EMMCtx
  sent : List (List UInt8)

namespace EMMCtx

/-- The challenges that an event added to the trace. -/
def newChallenges (c d : EMMCtx) : List (List UInt8) :=
  d.emmView.challenges.take (d.emmView.challenges.length - c.emmView.challenges.length)

/-- The Authentication Requests of an event. -/
def requests (c : EMMCtx) (e : Env × EMMEvent) (d : EMMCtx) : List (List UInt8) :=
  match e.2 with
  | .timer _ => []
  | _ => c.newChallenges d

theorem newChallenges_eq {new : List (List UInt8)} (h : d.emmView.challenges = new ++ c.emmView.challenges) :
    c.newChallenges d = new := by
  simp [newChallenges, h]

end EMMCtx

/-- The quadruplet that the HSS computes. -/
def HssAuth.quadruplet : HssAuth → Option AuthQuadruplet
  | .vector q => some q
  | _ => none

/-- The quadruplet that the HSS computes after a resynchronisation. -/
def HssSync.quadruplet : HssSync → Option AuthQuadruplet
  | .vector q => some q
  | _ => none

namespace Challenging

def step (P : Prims) (s : Challenging) (e : Env × EMMEvent) : Outcome Challenging := do
  let d ← s.ctx.step P e
  pure ⟨d, s.ctx.requests e d ++ s.sent⟩

/-- An authentication starts only if no quadruplet is left of an earlier one; the UE refuses a challenge only if
there is one, and the resynchronisation does not end without a result; and what the HSS computes was not sent
before. -/
structure Renews (P : Prims) (s : Challenging) (e : Env × EMMEvent) : Prop where
  starts : s.ctx.StartsAuth P e → s.ctx.authQuadrs = []
  fails : s.ctx.FailsAuth P e → s.ctx.authQuadrs ≠ []
  synch : s.ctx.FailsSynch P e → e.1.hssSync ≠ .wrongRows ∧ e.1.hssSync ≠ .invalidAuts
  auth : ∀ q ∈ e.1.hssAuth.quadruplet, q.challenge ∉ s.sent
  resync : ∀ q ∈ e.1.hssSync.quadruplet, q.challenge ∉ s.sent

instance (P : Prims) (s : Challenging) (e : Env × EMMEvent) : Decidable (s.Renews P e) :=
  decidable_of_iff ((s.ctx.StartsAuth P e → s.ctx.authQuadrs = []) ∧ (s.ctx.FailsAuth P e → s.ctx.authQuadrs ≠ []) ∧
      (s.ctx.FailsSynch P e → e.1.hssSync ≠ .wrongRows ∧ e.1.hssSync ≠ .invalidAuts) ∧
      (∀ q ∈ e.1.hssAuth.quadruplet, q.challenge ∉ s.sent) ∧ ∀ q ∈ e.1.hssSync.quadruplet, q.challenge ∉ s.sent)
    ⟨fun ⟨h₁, h₂, h₃, h₄, h₅⟩ => ⟨h₁, h₂, h₃, h₄, h₅⟩, fun ⟨h₁, h₂, h₃, h₄, h₅⟩ => ⟨h₁, h₂, h₃, h₄, h₅⟩⟩

/-- There is at most one quadruplet, it was sent, and the number is right. -/
structure Sent (sent : List (List UInt8)) (v : EMMView) : Prop where
  single : v.authQuadrs.length ≤ 1
  len : v.authQuadrsLen = UInt64.ofNat v.authQuadrs.length
  stored : ∀ q ∈ v.authQuadrs, q.challenge ∈ sent

theorem Sent.nil {sent : List (List UInt8)} {v : EMMView} (hlist : v.authQuadrs = []) (hlen : v.authQuadrsLen = 0) :
    Sent sent v := by
  refine ⟨?_, ?_, ?_⟩
  · simp [hlist]
  · simp [hlist, hlen]
  · simp [hlist]

theorem Sent.singleton {sent : List (List UInt8)} {v : EMMView} {q : AuthQuadruplet} (hlist : v.authQuadrs = [q])
    (hlen : v.authQuadrsLen = 1) (hq : q.challenge ∈ sent) : Sent sent v := by
  refine ⟨?_, ?_, ?_⟩
  · simp [hlist]
  · simp [hlist, hlen]
  · simp [hlist, hq]

theorem Sent.freed {sent : List (List UInt8)} {v : EMMView} (h : Sent sent v) : v.freed = [] := by
  have hnat : v.authQuadrsLen.toNat = v.authQuadrs.length := by
    rw [h.len, UInt64.toNat_ofNat_of_lt']
    exact lt_of_le_of_lt h.single (by decide)
  unfold EMMView.freed
  rw [hnat, if_pos le_rfl, List.drop_length]

theorem Sent.tail {sent : List (List UInt8)} {v : EMMView} (h : Sent sent v) (hne : v.authQuadrs ≠ []) :
    v.authQuadrs.tail = [] ∧ v.authQuadrsLen - 1 = 0 := by
  obtain ⟨q, rest, hlist⟩ := List.exists_cons_of_ne_nil hne
  have hrest : rest = [] := by
    have := h.single
    rw [hlist, List.length_cons] at this
    exact List.length_eq_zero_iff.mp (by omega)
  have hlen := h.len
  rw [hlist, hrest] at hlen
  rw [hlist, hrest, hlen]
  exact ⟨rfl, show UInt64.ofNat 1 - 1 = 0 by decide⟩

variable {s t : Challenging}

/-- The state of an event that the context of `s` found: `new` are the challenges that it sent so far.  As soon as
there is one the quadruplets differ from what they were. -/
structure Sends (s : Challenging) (new : List (List UInt8)) (v : EMMView) : Prop extends Sent (new ++ s.sent) v where
  grows : v.challenges = new ++ s.ctx.emmView.challenges
  nodup : (new ++ s.sent).Nodup
  first : v.authQuadrs = s.ctx.authQuadrs → new = []

theorem Sends.change {new : List (List UInt8)} {v w : EMMView} (hq : s.Renews P e) (hs : Sent s.sent s.ctx.emmView)
    (htimer : ∀ code, e.2 ≠ .timer code) (h : Sends s new v) (hw : EMMChange P s.ctx e v w) : ∃ new', Sends s new' w := by
  cases hw with
  | challengeStored hlist hsame hwhy =>
    exfalso
    rcases hwhy with hstart | ⟨hfail, hrows | hauts⟩
    · rw [hsame, hq.starts hstart] at hlist
      cases hlist
    · exact (hq.synch hfail).1 hrows
    · exact (hq.synch hfail).2 hauts
  | @challengeNew q first rest hvector hstart hsame hlen happ =>
    obtain rfl := h.first hsame
    have hfresh := hq.auth q (by rw [hvector]; rfl)
    have hnil : v.authQuadrs = [] := hsame.trans (hq.starts hstart)
    have hzero : v.authQuadrsLen = 0 := by rw [h.len, hnil]; rfl
    rw [hnil] at happ
    obtain ⟨rfl, -⟩ := List.cons.inj happ
    have hsent : Sent ([q.challenge] ++ s.sent) _ := .singleton (v := { v with
        authQuadrs := v.authQuadrs ++ [q]
        authQuadrsLen := v.authQuadrsLen + 1
        challenges := q.challenge :: v.challenges }) (by rw [hnil]; rfl) (by rw [hzero]; rfl) List.mem_cons_self
    refine ⟨[q.challenge], hsent, ?_, ?_, ?_⟩
    · exact congrArg (q.challenge :: ·) h.grows
    · exact List.nodup_cons.mpr ⟨hfresh, h.nodup⟩
    · intro heq
      have hne := heq.trans hsame.symm
      simp at hne
  | @resync q first rest hvector hfail hsame hlen happ =>
    obtain rfl := h.first hsame
    have hfresh := hq.resync q (by rw [hvector]; rfl)
    rw [h.freed] at happ
    obtain ⟨rfl, -⟩ := List.cons.inj happ
    have hsent : Sent ([q.challenge] ++ s.sent) _ := .singleton (v := { v with
        authQuadrs := v.freed ++ [q]
        authQuadrsLen := 1
        challenges := q.challenge :: v.challenges }) (by rw [h.freed]; rfl) rfl List.mem_cons_self
    refine ⟨[q.challenge], hsent, ?_, ?_, ?_⟩
    · exact congrArg (q.challenge :: ·) h.grows
    · exact List.nodup_cons.mpr ⟨hfresh, h.nodup⟩
    · -- the new quadruplet is not the old one, which was sent
      intro heq
      have hold : s.ctx.authQuadrs = [q] := by
        rw [← heq]
        rw [h.freed]
        rfl
      refine absurd (hs.stored q ?_) hfresh
      show q ∈ s.ctx.authQuadrs
      rw [hold]
      exact List.mem_cons_self
  | forget hfail hsame hlen =>
    obtain rfl := h.first hsame
    exact ⟨[], .nil h.freed rfl, h.grows, h.nodup, fun _ => rfl⟩
  | consume hwhy hsame hlen =>
    obtain rfl := h.first hsame
    have hne : v.authQuadrs ≠ [] := by
      rcases hwhy with ⟨-, hne⟩ | hfail
      · exact hne
      · rw [hsame]
        exact hq.fails hfail
    obtain ⟨htail, hzero⟩ := h.tail hne
    exact ⟨[], .nil htail hzero, h.grows, h.nodup, fun _ => rfl⟩
  | resend htime => exact absurd htime (htimer _)
  | _ => exact ⟨new, ⟨h.single, h.len, h.stored⟩, h.grows, h.nodup, h.first⟩

theorem Sent.change_timer {code : EMMTimerCode} (htime : e.2 = .timer code) {v w : EMMView} (h : Sent s.sent v)
    (hw : EMMChange P s.ctx e v w) : Sent s.sent w := by
  have htakes : s.ctx.takes P e = none := by
    obtain ⟨env, ev⟩ := e
    obtain rfl : ev = .timer code := htime
    rfl
  have hhandles : ∀ type, ¬ s.ctx.Handles P e type := by
    rintro type ⟨m, hm, -⟩
    rw [htakes] at hm
    cases hm
  have hstarts : ¬ s.ctx.StartsAuth P e := by
    rintro (⟨-, m, hm, -⟩ | ⟨-, m, hm, -⟩ | ⟨-, hid⟩)
    · rw [htakes] at hm
      cases hm
    · rw [htakes] at hm
      cases hm
    · exact hhandles _ hid
  have hsynch : ¬ s.ctx.FailsSynch P e := by
    rintro ⟨-, m, hm, -⟩
    rw [htakes] at hm
    cases hm
  cases hw with
  | challengeStored _ _ hwhy => exact absurd hwhy (not_or.mpr ⟨hstarts, fun h => hsynch h.1⟩)
  | challengeNew _ hstart => exact absurd hstart hstarts
  | resync _ hfail => exact absurd hfail hsynch
  | forget hfail => exact absurd hfail hsynch
  | consume hwhy => exact absurd hwhy (not_or.mpr ⟨fun h => hhandles _ h.1, fun h => hhandles _ h.2⟩)
  | _ => exact ⟨h.single, h.len, h.stored⟩

/-- An event that meets the condition sends nothing that was sent before. -/
theorem nodup_of_step (hq : s.Renews P e) (hs : Sent s.sent s.ctx.emmView) (hnodup : s.sent.Nodup)
    (h : s.step P e = .ok t) : t.sent.Nodup ∧ Sent t.sent t.ctx.emmView := by
  obtain ⟨d, hd, ht⟩ := bind_eq_ok.mp h
  obtain rfl := Except.ok.inj ht
  have hchanges := EMMCtx.changes_step s.ctx e d hd
  by_cases htimer : ∃ code, e.2 = .timer code
  · obtain ⟨code, htime⟩ := htimer
    have hnone : s.ctx.requests e d = [] := by
      unfold EMMCtx.requests
      rw [htime]
    show (s.ctx.requests e d ++ s.sent).Nodup ∧ Sent (s.ctx.requests e d ++ s.sent) d.emmView
    rw [hnone]
    exact ⟨hnodup, hchanges.invariant (fun v w hv hw => hv.change_timer htime hw) hs⟩
  · have hne := not_exists.mp htimer
    obtain ⟨new, hsends⟩ : ∃ new, Sends s new d.emmView := by
      refine hchanges.invariant (I := fun v => ∃ new, Sends s new v) ?_ ⟨[], hs, rfl, hnodup, fun _ => rfl⟩
      rintro v w ⟨new, hv⟩ hw
      exact hv.change hq hs hne hw
    have hnew : s.ctx.requests e d = new := by
      unfold EMMCtx.requests
      split
      · exact absurd ‹_› (hne _)
      · exact EMMCtx.newChallenges_eq hsends.grows
    rw [hnew]
    exact ⟨hsends.nodup, hsends.toSent⟩

/-- The two functions of the S6a interface report success only with a new quadruplet, except for a wrong number of
rows and an invalid AUTS; and in every run from `emm_init` that meets the condition no challenge is sent in two
requests. -/
theorem challenges_fresh (P : Prims) (env : Env) (c : EMMCtx) (self ecm : Nat) (s11 : S11Stack)
    (es : List (Env × EMMEvent)) (s : Challenging) :
    (EMMCtx.SuccessIsFresh (c.hssNewAuthVec env) ↔ env.hssAuth ≠ .manyRows) ∧
    (EMMCtx.SuccessIsFresh (c.hssSyncAuthVec env) ↔
      env.hssSync ≠ .wrongRows ∧ (env.hssSync = .invalidAuts → c.authQuadrs = [])) ∧
    (Run (step P) (Renews P) ⟨emmInit self ecm s11, []⟩ es s → s.sent.Nodup) := by
  refine ⟨EMMCtx.successIsFresh_hssNewAuthVec_iff, EMMCtx.successIsFresh_hssSyncAuthVec_iff, fun h => ?_⟩
  refine (h.invariant (I := fun s => s.sent.Nodup ∧ Sent s.sent s.ctx.emmView) ?_ ⟨.nil, .nil rfl rfl⟩).1
  rintro t e u ⟨hnodup, ht⟩ hq hstep
  exact nodup_of_step hq ht hnodup hstep

/-- The sample UE refuses its first challenge because of the sequence number and gets a second one. -/
theorem challenges_fresh_resync :
    ∃ s, Run (step Prims.zeroKasme) (Renews Prims.zeroKasme) ⟨Sample.init, []⟩
        [(Sample.env (.vector (Sample.quadruplet (List.replicate 32 0))), Sample.attachRequest),
          ({ Sample.env .manyRows with hssSync := .vector ⟨List.replicate 16 0x33, [], List.replicate 16 0x44, []⟩ },
            Sample.uplink ([0x07, 0x5c, 0x15, 0x30, 14] ++ List.replicate 14 0))] s ∧
      s.sent.length = 2 ∧ s.sent.Nodup := by
  refine Run.exists_of_exec (fun s => s.sent.length = 2) (by decide +kernel) fun s hrun hlen => ?_
  exact ⟨hlen, (challenges_fresh _ default s.ctx _ _ _ _ s).2.2 hrun⟩

/-- Several rows, or none at a resynchronisation, pass for success.  And a UE that answers its challenge wrongly
gets the same challenge when it attaches again. -/
theorem challenges_repeated :
    ¬ EMMCtx.SuccessIsFresh (Sample.init.hssNewAuthVec (Sample.env .manyRows)) ∧
    ¬ EMMCtx.SuccessIsFresh (Sample.init.hssSyncAuthVec (Sample.env .noRows)) ∧
    ∃ s, Run (step Prims.zeroKasme) (fun _ _ => True) ⟨Sample.init, []⟩
        [(Sample.env (.vector (Sample.quadruplet (List.replicate 32 0))), Sample.attachRequest),
          (Sample.env .noRows, Sample.uplink [0x07, 0x53, 0x08, 8, 7, 6, 5, 4, 3, 2, 1]),
          (Sample.env .noRows, Sample.attachRequest)] s ∧
      s.sent = List.replicate 2 (List.replicate 16 0x11 ++ 16 :: List.replicate 16 0x22) :=
  ⟨EMMCtx.not_successIsFresh rfl, EMMCtx.not_successIsFresh rfl, Run.exists_of_exec _ (by decide +kernel) fun _ _ => id⟩

end Challenging

end AaltoMME
