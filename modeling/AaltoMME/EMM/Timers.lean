import AaltoMME.Common.TimerMgr
import AaltoMME.EMM.Context

/-!
# The timers of the EMM contexts

`EMM_Timers.c` over the timer manager.  Each EMM context has a table `activeTimers` with one entry
per timer code, and a timer carries its context and its code as callback arguments.  The entry is
written in three places: by `emm_setTimer`, by `emm_stopTimer`, and by the free callback of a timer,
which runs inside `tm_stop_timer` when a timer is replaced, stopped, or has run out.

The entries and the timers of the manager correspond to each other in every state that any sequence
of these operations and of expirations leads to, whatever the handlers of the expirations set or
stop.  This does not depend on which addresses the allocator returns.
-/

namespace AaltoMME

open Base TimerMgr

/-- `EMM_TimerCode`, with the timers of the UE side.  `EMMTimerCode` has the network side only. -/
inductive EMMTimerId
  | tNull
  | t3402 | t3410 | t3411 | t3412 | t3416 | t3417 | t3417ext | t3418 | t3420 | t3421 | t3423 | t3430
  | t3440 | t3442
  | t3413 | t3422 | t3450 | t3460 | t3470 | tMobileReachable | tImplicitDetach
  deriving DecidableEq, Repr

namespace EMMTimerId

/-- The codes in the order of their numbers, of which there are `EMM_NUM_TIMERS`. -/
def all : List EMMTimerId :=
  [.tNull, .t3402, .t3410, .t3411, .t3412, .t3416, .t3417, .t3417ext, .t3418, .t3420, .t3421, .t3423,
    .t3430, .t3440, .t3442, .t3413, .t3422, .t3450, .t3460, .t3470, .tMobileReachable,
    .tImplicitDetach]

/-- `EMM_rtx`. -/
def rtx : EMMTimerId → UInt32
  | .tNull => 0
  | .tMobileReachable | .tImplicitDetach => 1
  | _ => 4

/-- `EMM_tv`. -/
def tv : EMMTimerId → Nat × Nat
  | .tNull => (0, 0)
  | .t3402 => (12 * 60, 0)
  | .t3410 => (15, 0)
  | .t3411 => (10, 0)
  | .t3412 => (54 * 60, 0)
  | .t3416 => (30, 0)
  | .t3417 => (5, 0)
  | .t3417ext => (10, 0)
  | .t3418 => (20, 0)
  | .t3420 => (15, 0)
  | .t3421 => (15, 0)
  | .t3423 => (54 * 60, 0)
  | .t3430 => (15, 0)
  | .t3440 => (10, 0)
  | .t3442 => (60 * 60, 0)
  | .t3413 => (60, 0)
  | .t3422 => (6, 0)
  | .t3450 => (6, 0)
  | .t3460 => (6, 0)
  | .t3470 => (6, 0)
  | .tMobileReachable => (54 * 60 + 4 * 60, 0)
  | .tImplicitDetach => (1, 0)

end EMMTimerId

/-- The code of a timer of the network side. -/
def EMMTimerCode.id : EMMTimerCode → EMMTimerId
  | .t3413 => .t3413
  | .t3422 => .t3422
  | .t3450 => .t3450
  | .t3460 => .t3460
  | .t3470 => .t3470
  | .tMobileReachable => .tMobileReachable
  | .tImplicitDetach => .tImplicitDetach

theorem EMMTimerCode.rtx_id (c : EMMTimerCode) : c.id.rtx.toNat = emmRtx c := by
  cases c <;> rfl

/-- `EMM_Timer`: the context, the code and the message. -/
structure EMMTimerArg where
  emm : Nat
  code : EMMTimerId
  msg : List UInt8
  deriving DecidableEq, Repr

/-- The entry `emm->activeTimers[c]` of every context. -/
abbrev ActiveTimers : Type := Nat → EMMTimerId → Option Nat

def ActiveTimers.set (active : ActiveTimers) (emm : Nat) (c : EMMTimerId) (t : Option Nat) :
    ActiveTimers := fun e d => if e = emm ∧ d = c then t else active e d

/-- The timer manager and the tables of the contexts. -/
abbrev EMMTimers : Type := TimerMgr EMMTimerArg ActiveTimers

/-- `emm_timer_free_cb`. -/
def emmTimerFreeCb : TimerCb EMMTimerArg ActiveTimers := fun m _ t =>
  .ok { m with user := m.user.set t.emm t.code none }

/-- The arguments that `emm_setTimer` gives to `tm_add_timer`. -/
def emmTimerArgs (emm : Nat) (c : EMMTimerId) (msg : List UInt8) : TimerArgs EMMTimerArg :=
  ⟨some c.tv, c.rtx, true, true, true, ⟨emm, c, msg⟩⟩

namespace TimerMgr

variable (m : EMMTimers)

/-- `emm_setTimer`. -/
def emmSetTimer (emm : Nat) (c : EMMTimerId) (msg : List UInt8) (hint : Nat) : Outcome EMMTimers :=
  match m.tmAddTimer hint (emmTimerArgs emm c msg) with
  | (_, none) => .error (.gError "Failed to create timer.")
  | (m, some t) => do
    let m ← match m.user emm c with
      | none => .ok m
      | some old => m.tmStopTimer emmTimerFreeCb (some old)
    .ok { m with user := m.user.set emm c (some t) }

/-- `emm_stopTimer`. -/
def emmStopTimer (emm : Nat) (c : EMMTimerId) : Outcome EMMTimers :=
  match m.user emm c with
  | none => .ok m
  | some t => do
    let m ← m.tmStopTimer emmTimerFreeCb (some t)
    .ok { m with user := m.user.set emm c none }

/-- `emm_stopAllTimers`, whose loop does for each code what `emm_stopTimer` does. -/
def emmStopAllTimers (emm : Nat) : Outcome EMMTimers :=
  EMMTimerId.all.foldlM (fun m c => m.emmStopTimer emm c) m

end TimerMgr

/-- What the code of a context does with its timers. -/
inductive EMMTimerOp
  | setTimer (emm : Nat) (c : EMMTimerId) (msg : List UInt8) (hint : Nat)
  | stopTimer (emm : Nat) (c : EMMTimerId)
  | stopAllTimers (emm : Nat)

def EMMTimerOp.run (m : EMMTimers) : EMMTimerOp → Outcome EMMTimers
  | .setTimer emm c msg hint => m.emmSetTimer emm c msg hint
  | .stopTimer emm c => m.emmStopTimer emm c
  | .stopAllTimers emm => m.emmStopAllTimers emm

/-- An operation, or the expiration of the timer at an address with what `processTimeout` or
`processTimeoutMax` does. -/
inductive EMMTimerEvent
  | op (o : EMMTimerOp)
  | expires (timer : Nat) (handler : List EMMTimerOp)

namespace TimerMgr

/-- The handler of an expiration: `emm_timer_cb` and `emm_timer_max_cb`. -/
def emmTimerCb (handler : List EMMTimerOp) : TimerCb EMMTimerArg ActiveTimers := fun m _ _ =>
  handler.foldlM EMMTimerOp.run m

/-- A step of the system.  Only the events of timers in the table fire. -/
def emmStep (m : EMMTimers) : EMMTimerEvent → Outcome EMMTimers
  | .op o => o.run m
  | .expires a handler =>
    if a ∈ m.timers then m.timerCb (emmTimerCb handler) (emmTimerCb handler) emmTimerFreeCb a
    else .ok m

/-- A live timer with the given context and code. -/
def IsTimerOf (m : EMMTimers) (emm : Nat) (c : EMMTimerId) (a : Nat) : Prop :=
  a ∈ m.timers ∧ ∃ t, m.heap a = some t ∧ t.args.cbArgs.emm = emm ∧ t.args.cbArgs.code = c

/-- At most one live timer for each context and code, and the entry is that timer, or NULL if there
is none. -/
def ActiveAreLive (m : EMMTimers) : Prop :=
  ∀ emm c, (∀ a b, m.IsTimerOf emm c a → m.IsTimerOf emm c b → a = b) ∧
    ∀ a, m.user emm c = some a ↔ m.IsTimerOf emm c a

/-! ## The invariant -/

variable {m m' : EMMTimers} {a hint emm : Nat} {c : EMMTimerId} {t : Timer EMMTimerArg}

/-- The entries are the live timers, and every timer clears its entry when it goes. -/
structure Tracked (m : EMMTimers) : Prop extends WF m where
  clears : ∀ a t, m.heap a = some t → t.args.cbFree = true
  active : ∀ emm c a, m.user emm c = some a ↔ m.IsTimerOf emm c a

theorem Tracked.activeAreLive (h : Tracked m) : m.ActiveAreLive := fun emm c =>
  ⟨fun a b ha hb => Option.some.inj
    (((h.active emm c a).mpr ha).symm.trans ((h.active emm c b).mpr hb)), h.active emm c⟩

theorem tracked_initTimerMgr : Tracked (initTimerMgr fun _ _ => none) where
  toWF := wf_initTimerMgr _
  clears _ _ h := nomatch h
  active _ _ _ := ⟨nofun, fun h => nomatch h.1⟩

theorem Tracked.congr (h : Tracked m) (hheap : m'.heap = m.heap) (htimers : m'.timers = m.timers)
    (hnext : m'.next = m.next) (huser : m'.user = m.user) : Tracked m' := by
  obtain ⟨⟩ := m'
  cases hheap
  cases htimers
  cases hnext
  cases huser
  exact ⟨⟨h.next, h.table, h.nodup⟩, h.clears, h.active⟩

theorem ActiveTimers.set_eq_some {active : ActiveTimers} {e : Nat} {d : EMMTimerId} {o : Option Nat} :
    active.set emm c o e d = some a ↔
      (e = emm ∧ d = c) ∧ o = some a ∨ ¬ (e = emm ∧ d = c) ∧ active e d = some a := by
  unfold ActiveTimers.set
  split
  · next h => simp [h]
  · next h => simp [h]

theorem ActiveTimers.set_set (active : ActiveTimers) (emm : Nat) (c : EMMTimerId) (o o' : Option Nat) :
    (active.set emm c o).set emm c o' = active.set emm c o' := by
  funext e d
  simp only [ActiveTimers.set]
  split <;> rfl

theorem ActiveTimers.set_self (active : ActiveTimers) (emm : Nat) (c : EMMTimerId) (o : Option Nat) :
    active.set emm c o emm c = o := if_pos ⟨rfl, rfl⟩

/-- The state after `tm_stop_timer` for a timer of the table. -/
def stopped (m : EMMTimers) (a : Nat) (t : Timer EMMTimerArg) : EMMTimers :=
  { m.log t.num t.args.freed with
    heap := Function.update m.heap a none
    timers := m.timers.erase a
    user := m.user.set t.args.cbArgs.emm t.args.cbArgs.code none }

theorem tmStopTimer_eq_stopped (hc : t.args.cbFree = true) (ht : m.heap a = some t)
    (ha : a ∈ m.timers) : m.tmStopTimer emmTimerFreeCb (some a) = .ok (m.stopped a t) := by
  refine (tmStopTimer_of_mem (f := fun u y => u.set y.emm y.code none) ht ha).trans ?_
  rw [if_pos hc]
  rfl

theorem Tracked.stopped (h : Tracked m) (ht : m.heap a = some t) (ha : a ∈ m.timers) :
    Tracked (m.stopped a t) where
  toWF :=
    have hwf := (h.toWF.erase a).free h.nodup.not_mem_erase
    ⟨hwf.next, hwf.table, hwf.nodup⟩
  clears b u hb := h.clears b u (update_none_eq_some.mp hb).2
  active e d b := by
    have hself := (h.active _ _ a).mpr ⟨ha, t, ht, rfl, rfl⟩
    rw [show (m.stopped a t).user = m.user.set t.args.cbArgs.emm t.args.cbArgs.code none from rfl,
      ActiveTimers.set_eq_some, h.active]
    constructor
    · rintro (⟨_, hnone⟩ | ⟨hne, hb, u, hu, hemm, hcode⟩)
      · exact nomatch hnone
      · have hba : b ≠ a := by
          rintro rfl
          cases ht.symm.trans hu
          exact hne ⟨hemm.symm, hcode.symm⟩
        exact ⟨h.nodup.mem_erase_iff.mpr ⟨hba, hb⟩, u, update_none_eq_some.mpr ⟨hba, hu⟩, hemm, hcode⟩
    · rintro ⟨hb, u, hu, hemm, hcode⟩
      obtain ⟨hba, hb'⟩ := h.nodup.mem_erase_iff.mp hb
      have hu' := (update_none_eq_some.mp hu).2
      refine .inr ⟨?_, hb', u, hu', hemm, hcode⟩
      rintro ⟨rfl, rfl⟩
      -- Two timers of one context and code would be one.
      have hsame := (h.active _ _ b).mpr ⟨hb', u, hu', hemm, hcode⟩
      exact hba (Option.some.inj (hsame.symm.trans hself))

theorem Tracked.withTimer (h : Tracked m) (ha : m.heap a = none) (msg : List UInt8)
    (hfree : m.user emm c = none) :
    Tracked { m.withTimer a (emmTimerArgs emm c msg) with user := m.user.set emm c (some a) } where
  toWF :=
    have hwf := h.toWF.withTimer ha
    ⟨hwf.next, hwf.table, hwf.nodup⟩
  clears b u hb := by
    rcases update_some_eq_some.mp hb with ⟨_, rfl⟩ | ⟨_, hb'⟩
    · rfl
    · exact h.clears b u hb'
  active e d b := by
    rw [ActiveTimers.set_eq_some, h.active]
    constructor
    · rintro (⟨⟨rfl, rfl⟩, hab⟩ | ⟨hne, hb, u, hu, hemm, hcode⟩)
      · cases hab
        exact ⟨List.mem_cons_self, _, update_some_eq_some.mpr (.inl ⟨rfl, rfl⟩), rfl, rfl⟩
      · have hba : b ≠ a := fun heq => h.not_mem ha (heq ▸ hb)
        exact ⟨List.mem_cons_of_mem _ hb, u, update_some_eq_some.mpr (.inr ⟨hba, hu⟩), hemm, hcode⟩
    · rintro ⟨hb, u, hu, hemm, hcode⟩
      rcases update_some_eq_some.mp hu with ⟨rfl, rfl⟩ | ⟨hba, hu'⟩
      · exact .inl ⟨⟨hemm.symm, hcode.symm⟩, rfl⟩
      · have hb' := (List.mem_cons.mp hb).resolve_left hba
        refine .inr ⟨?_, hb', u, hu', hemm, hcode⟩
        rintro ⟨rfl, rfl⟩
        cases hfree.symm.trans ((h.active _ _ b).mpr ⟨hb', u, hu', hemm, hcode⟩)

theorem Tracked.tick (h : Tracked m) (ht : m.heap a = some t) (acts : List TimerAct) :
    Tracked (m.tick a t acts) where
  toWF := h.toWF.tick ht acts
  clears b u hb := by
    rcases update_some_eq_some.mp hb with ⟨_, rfl⟩ | ⟨_, hb'⟩
    · exact h.clears a t ht
    · exact h.clears b u hb'
  active e d b := by
    refine (h.active e d b).trans (and_congr_right fun _ => ⟨?_, ?_⟩)
    · rintro ⟨u, hu, hemm, hcode⟩
      by_cases hba : b = a
      · subst hba
        cases ht.symm.trans hu
        exact ⟨_, heap_tick_self acts, hemm, hcode⟩
      · exact ⟨u, update_some_eq_some.mpr (.inr ⟨hba, hu⟩), hemm, hcode⟩
    · rintro ⟨u, hu, hemm, hcode⟩
      rcases update_some_eq_some.mp hu with ⟨rfl, rfl⟩ | ⟨_, hu'⟩
      · exact ⟨t, ht, hemm, hcode⟩
      · exact ⟨u, hu', hemm, hcode⟩

/-! ## The operations -/

theorem Tracked.emmStopTimer (h : Tracked m) (emm : Nat) (c : EMMTimerId) :
    ∃ m', m.emmStopTimer emm c = .ok m' ∧ Tracked m' := by
  unfold TimerMgr.emmStopTimer
  cases hact : m.user emm c with
  | none => exact ⟨m, rfl, h⟩
  | some a =>
    obtain ⟨ha, t, ht, rfl, rfl⟩ := (h.active emm c a).mp hact
    refine ⟨{ m.stopped a t with
      user := (m.stopped a t).user.set t.args.cbArgs.emm t.args.cbArgs.code none }, ?_,
      (h.stopped ht ha).congr rfl rfl rfl ?_⟩
    · show (_ >>= _) = _
      rw [tmStopTimer_eq_stopped (h.clears a t ht) ht ha]
      rfl
    · -- The free callback has cleared the entry already.
      exact ActiveTimers.set_set ..

theorem EMMTimerId.accepted (emm : Nat) (hc : c ≠ .tNull) (msg : List UInt8) :
    (emmTimerArgs emm c msg).Accepted := by
  refine ⟨⟨c.tv, rfl, ?_⟩, rfl, ?_⟩
  · cases c <;> first | exact absurd rfl hc | decide
  · cases c <;> first | exact absurd rfl hc | exact (by decide : (1 : UInt32) ≤ 4) |
      exact (by decide : (1 : UInt32) ≤ 1)

theorem EMMTimerId.not_accepted (emm : Nat) (msg : List UInt8) :
    ¬ (emmTimerArgs emm .tNull msg).Accepted := fun ⟨_, _, hmax⟩ =>
  absurd hmax (by decide : ¬ (1 : UInt32) ≤ 0)

/-- `emm_setTimer` adds a timer for every code but `TNULL`, for which it aborts. -/
theorem Tracked.emmSetTimer (h : Tracked m) (hc : c ≠ .tNull) (msg : List UInt8) :
    ∃ m', m.emmSetTimer emm c msg hint = .ok m' ∧ Tracked m' := by
  have hnew := heap_gNew h.next hint
  cases hact : m.user emm c with
  | none =>
    refine ⟨_, ?_, h.withTimer hnew msg hact⟩
    simp only [TimerMgr.emmSetTimer, tmAddTimer_of_accepted (EMMTimerId.accepted emm hc msg),
      user_withTimer, hact, ok_bind]
  | some old =>
    obtain ⟨ha, t, ht, rfl, rfl⟩ := (h.active emm c old).mp hact
    have hne : old ≠ m.gNew hint := by
      rintro rfl
      cases hnew.symm.trans ht
    have ht' : (m.withTimer (m.gNew hint) (emmTimerArgs t.args.cbArgs.emm t.args.cbArgs.code
        msg)).heap old = some t := update_some_eq_some.mpr (.inr ⟨hne, ht⟩)
    have hstop := tmStopTimer_eq_stopped (h.clears old t ht) ht' (List.mem_cons_of_mem _ ha)
    have hset : m.emmSetTimer t.args.cbArgs.emm t.args.cbArgs.code msg hint = .ok
        { (m.withTimer (m.gNew hint) (emmTimerArgs t.args.cbArgs.emm t.args.cbArgs.code msg)).stopped
            old t with
          user := (m.stopped old t).user.set t.args.cbArgs.emm t.args.cbArgs.code
            (some (m.gNew hint)) } := by
      simp only [TimerMgr.emmSetTimer, tmAddTimer_of_accepted (EMMTimerId.accepted _ hc msg), user_withTimer, hact,
        hstop]
      rfl
    -- The old timer might as well have been stopped first.
    have hfirst := (h.stopped ht ha).withTimer ((Function.update_of_ne hne.symm _ _).trans hnew) msg
      (ActiveTimers.set_self _ _ _ none)
    refine ⟨_, hset, hfirst.congr ?_ ?_ rfl rfl⟩
    · exact Function.update_comm hne.symm _ _ _
    · exact List.erase_cons_tail (by simpa using hne.symm)

theorem emmSetTimer_tNull (msg : List UInt8) :
    m.emmSetTimer emm .tNull msg hint = .error (.gError "Failed to create timer.") := by
  simp only [emmSetTimer, tmAddTimer_of_not_accepted (EMMTimerId.not_accepted emm msg)]

theorem Tracked.run (h : Tracked m) (o : EMMTimerOp) : Post (o.run m) Tracked := by
  cases o with
  | setTimer emm c msg hint =>
    show Post (m.emmSetTimer emm c msg hint) Tracked
    by_cases hc : c = .tNull
    · rw [hc]
      exact .error
    · obtain ⟨m', hm', h'⟩ := h.emmSetTimer hc msg
      rw [hm']
      exact .ok h'
  | stopTimer emm c =>
    obtain ⟨m', hm', h'⟩ := h.emmStopTimer emm c
    show Post (m.emmStopTimer emm c) Tracked
    rw [hm']
    exact .ok h'
  | stopAllTimers emm =>
    refine .foldlM (fun m c hm => ?_) _ h
    obtain ⟨m', hm', h'⟩ := hm.emmStopTimer emm c
    rw [hm']
    exact .ok h'

theorem Tracked.emmTimerCb (h : Tracked m) (handler : List EMMTimerOp) (x : EMMTimerArg) :
    Post (emmTimerCb handler m a x) Tracked :=
  Post.foldlM (fun _ o hm => hm.run o) handler h

theorem Tracked.stopLast (h : Tracked m) (last : Bool) :
    Post (m.stopLast emmTimerFreeCb a last) Tracked := by
  refine .ite (fun hmem => ?_) fun _ => .ok h
  obtain ⟨t, ht⟩ := h.table a hmem.2
  rw [tmStopTimer_eq_stopped (h.clears a t ht) ht hmem.2]
  exact .ok (h.stopped ht hmem.2)

theorem Tracked.emmStep (h : Tracked m) (ev : EMMTimerEvent) : Post (m.emmStep ev) Tracked := by
  cases ev with
  | op o => exact h.run o
  | expires a handler =>
    refine .ite (fun ha => ?_) fun _ => .ok h
    obtain ⟨t, ht⟩ := h.table a ha
    rw [timerCb_eq ht]
    refine .ite (fun _ => ?_) fun _ => .ite (fun _ => ?_) fun _ => .error
    · exact ((h.tick ht _).emmTimerCb handler _).bind fun _ h₁ => h₁.stopLast _
    · exact ((h.tick ht _).emmTimerCb handler _).bind fun _ h₁ => h₁.stopLast _

/-- In every state reached, and in the middle of every handler that runs from there, there is at
most one live timer for each context and code, and the entry of the context is that timer. -/
theorem activeAreLive_of_run {evs : List EMMTimerEvent} {m : EMMTimers}
    (hrun : Run emmStep (fun _ _ => True) (initTimerMgr fun _ _ => none) evs m) :
    m.ActiveAreLive ∧ ∀ a t acts handler m', m.heap a = some t →
      emmTimerCb handler (m.tick a t acts) a t.args.cbArgs = .ok m' → m'.ActiveAreLive := by
  have h : Tracked m := hrun.invariant (I := Tracked)
    (fun _ ev _ h _ hstep => h.emmStep ev _ hstep) tracked_initTimerMgr
  refine ⟨h.activeAreLive, fun a t acts handler m' ht hm' => ?_⟩
  exact ((h.tick ht acts).emmTimerCb handler _ m' hm').activeAreLive

/-- T3460 is set and set again, expires four times, and in its last expiration stops itself and sets
T3450, which gets its memory. -/
def sampleTimers : List EMMTimerEvent :=
  [.op (.setTimer 0 .t3460 [7] 0), .op (.setTimer 0 .t3460 [8] 1), .op (.setTimer 1 .t3470 [] 0),
    .expires 1 [], .expires 1 [], .expires 1 [], .expires 1 [],
    .expires 1 [.stopAllTimers 0, .setTimer 0 .t3450 [] 1]]

theorem activeAreLive_of_run_sample : ∃ m, Run emmStep (fun _ _ => True) (initTimerMgr fun _ _ => none)
    sampleTimers m ∧ m.ActiveAreLive ∧ m.timers = [0] ∧ m.user 1 .t3470 = some 0 := by
  refine Run.exists_of_exec (fun m => m.timers = [0] ∧ m.user 1 .t3470 = some 0) (by decide +kernel) fun m hrun h => ?_
  exact ⟨(activeAreLive_of_run hrun).1, h⟩

end TimerMgr

end AaltoMME
