import AaltoMME.Common.TimerMgr
import AaltoMME.S11.Peers

/-!
# The supervision of the peers

`S11_Peer.c` over the timer manager.  A peer is tracked from its first session to its last one: a timer
runs whose argument is the peer and whose address is in the field `t` of the peer.  The timer expires once;
its callback starts the next one and stores that in `t`, and the manager then removes the one that expired.
An Echo Response stops the timer and starts a new one.

The stack of `S11Stack` gives the peers by address without their memory.  Here the table of the peers has
the object that it points to for each address, and an object has its field `t` until it is freed.
-/

namespace AaltoMME

open Base TimerMgr

/-- The stack, the objects of its peers, and their fields `t`. -/
structure PeerObjects where
  stack : S11Stack
  /-- The object that the table `peers` has for an address. -/
  peer : Option SockAddr → Option Nat
  /-- The field `t` of an object, `none` if it is not allocated. -/
  timer : Nat → Option (Option Nat)
  /-- The next object. -/
  fresh : Nat

/-- The timer manager and the peers. -/
abbrev Supervision : Type := TimerMgr Nat PeerObjects

/-- The arguments that `s11peer_track` and `s11peer_sendEcho` give to `tm_add_timer`. -/
def echoTimer (p : Nat) : TimerArgs Nat := ⟨some (20, 0), 1, true, false, false, p⟩

namespace TimerMgr

variable (m : Supervision)

/-- `p->t = tm_add_timer(...)` -/
def s11peerTrack (hint p : Nat) : Outcome Supervision :=
  match m.user.timer p with
  | none => .error .useAfterFree
  | some _ =>
    let (m, t) := m.tmAddTimer hint (echoTimer p)
    .ok { m with user := { m.user with timer := Function.update m.user.timer p (some t) } }

/-- `s11peer_sendEcho` does the same; the Echo Request itself is not sent. -/
def s11peerSendEcho (hint : Nat) : TimerCb Nat PeerObjects := fun m _ p => m.s11peerTrack hint p

/-- The `cb_free` and the `cb_maxTo` of these timers are NULL. -/
def nullCb : TimerCb Nat PeerObjects := fun m _ _ => .ok m

/-- `s11peer_untrack`. -/
def s11peerUntrack (p : Nat) : Outcome Supervision :=
  match m.user.timer p with
  | none => .error .useAfterFree
  | some t => m.tmStopTimer nullCb t

/-- `S11_isFirstSession`. -/
def s11IsFirstSession (hint : Nat) (rAddr : Option SockAddr) : Outcome Supervision :=
  let (first, stack) := m.user.stack.isFirstSession rAddr
  if first then
    let p := m.user.fresh
    -- `malloc`; the field `t` is written before it is read.
    s11peerTrack { m with user :=
      { stack, peer := Function.update m.user.peer rAddr (some p),
        timer := Function.update m.user.timer p (some none), fresh := p + 1 } } hint p
  else .ok { m with user := { m.user with stack } }

/-- `S11_unrefSession`. -/
def s11UnrefSession (rAddr : Option SockAddr) : Outcome Supervision :=
  match m.user.peer rAddr with
  | none => .error .nullDeref
  | some p => do
    let stack ← m.user.stack.unrefSession rAddr
    if (stack.peers.get rAddr).isNone then
      -- The last session: `g_hash_table_remove` frees the peer.
      let m ← m.s11peerUntrack p
      .ok { m with user :=
        { m.user with stack, peer := Function.update m.user.peer rAddr none,
                      timer := Function.update m.user.timer p none } }
    else .ok { m with user := { m.user with stack } }

/-- `s11peer_processEchoRsp`, with the counter of the Recovery element. -/
def s11peerProcessEchoRsp (hint : Nat) (rAddr : Option SockAddr) (counter : UInt8) :
    Outcome Supervision :=
  match m.user.peer rAddr with
  | none => .error .nullDeref
  | some p => do
    let m ← m.s11peerUntrack p
    let m ← m.s11peerTrack hint p
    .ok { m with user := { m.user with stack := m.user.stack.checkPeerRestart rAddr counter } }

end TimerMgr

/-- What happens to the peers and their timers. -/
inductive SupervisionEvent
  | session (hint : Nat) (rAddr : Option SockAddr)
  | unref (rAddr : Option SockAddr)
  | echoRsp (hint : Nat) (rAddr : Option SockAddr) (counter : UInt8)
  /-- Any other message of a peer that has its counter. -/
  | recovery (rAddr : Option SockAddr) (counter : UInt8)
  | expires (hint timer : Nat)

namespace TimerMgr

/-- A step of the system.  Only the events of timers in the table fire. -/
def superviseStep (m : Supervision) : SupervisionEvent → Outcome Supervision
  | .session hint rAddr => m.s11IsFirstSession hint rAddr
  | .unref rAddr => m.s11UnrefSession rAddr
  | .echoRsp hint rAddr counter => m.s11peerProcessEchoRsp hint rAddr counter
  | .recovery rAddr counter =>
    .ok { m with user := { m.user with stack := m.user.stack.checkPeerRestart rAddr counter } }
  | .expires hint a =>
    if a ∈ m.timers then m.timerCb (s11peerSendEcho hint) nullCb nullCb a else .ok m

/-- The initial state of `S11_init`. -/
def superviseInit (restartCounter : UInt8) : Supervision :=
  initTimerMgr ⟨S11Stack.init restartCounter, fun _ => none, fun _ => none, 0⟩

/-- A live timer whose argument is the peer. -/
def Watches (m : Supervision) (p a : Nat) : Prop :=
  a ∈ m.timers ∧ ∃ t, m.heap a = some t ∧ t.args.cbArgs = p

/-- Each peer in the table has exactly one live timer, which is in its field `t`, and each live timer is
the one of a peer in the table. -/
def PeersSupervised (m : Supervision) : Prop :=
  (∀ rAddr q, m.user.stack.peers.get rAddr = some q → ∃ p a, m.user.peer rAddr = some p ∧
    m.user.timer p = some (some a) ∧ ∀ b, m.Watches p b ↔ b = a) ∧
  ∀ b ∈ m.timers, ∃ p rAddr q, m.Watches p b ∧ m.user.peer rAddr = some p ∧
    m.user.stack.peers.get rAddr = some q

end TimerMgr

/-! ## The objects -/

namespace PeerObjects

variable {u : PeerObjects} {rAddr : Option SockAddr} {p : Nat} {o : Option Nat}

/-- The table of the stack and the objects. -/
structure Matches (u : PeerObjects) : Prop where
  get : ∀ rAddr, (u.stack.peers.get rAddr).isSome = (u.peer rAddr).isSome
  inj : ∀ rAddr rAddr' p, u.peer rAddr = some p → u.peer rAddr' = some p → rAddr = rAddr'
  alloc : ∀ p, (u.timer p).isSome ↔ ∃ rAddr, u.peer rAddr = some p
  fresh : ∀ rAddr p, u.peer rAddr = some p → p < u.fresh

theorem Matches.stack (h : u.Matches) {s : S11Stack}
    (hs : ∀ rAddr, (s.peers.get rAddr).isSome = (u.stack.peers.get rAddr).isSome) :
    { u with stack := s }.Matches :=
  { h with get := fun rAddr => (hs rAddr).trans (h.get rAddr) }

theorem Matches.timer (h : u.Matches) (hp : u.timer p = some o) (o' : Option Nat) :
    { u with timer := Function.update u.timer p (some o') }.Matches :=
  { h with
    alloc := fun q => by
      refine Iff.trans ?_ (h.alloc q)
      by_cases hq : q = p
      · subst hq
        simp [hp]
      · simp [hq] }

theorem Matches.timer_fresh (h : u.Matches) : u.timer u.fresh = none := by
  cases htimer : u.timer u.fresh with
  | none => rfl
  | some o =>
    obtain ⟨rAddr, hpeer⟩ := (h.alloc u.fresh).mp (htimer ▸ rfl)
    exact absurd (h.fresh rAddr _ hpeer) (lt_irrefl _)

theorem update_eq_some {f : Option SockAddr → Option Nat} {a b : Option SockAddr} :
    Function.update f a o b = some p ↔ b = a ∧ o = some p ∨ b ≠ a ∧ f b = some p := by
  by_cases hba : b = a
  · subst hba
    simp
  · simp [hba]

theorem Matches.insert (h : u.Matches) (hnone : u.stack.peers.get rAddr = none) (q : S11Peer) :
    Matches ⟨{ u.stack with peers := u.stack.peers.insert rAddr q },
      Function.update u.peer rAddr (some u.fresh), Function.update u.timer u.fresh (some none),
      u.fresh + 1⟩ where
  get b := by
    by_cases hb : b = rAddr
    · subst hb
      simp
    · simp [hb, Table.get_insert_of_ne, h.get b]
  inj b c p hb hc := by
    rcases update_eq_some.mp hb with ⟨rfl, hp⟩ | ⟨hne, hb'⟩ <;>
      rcases update_eq_some.mp hc with ⟨rfl, hp'⟩ | ⟨hne', hc'⟩
    · rfl
    · exact absurd (h.fresh c p hc') (Option.some.inj hp ▸ lt_irrefl _)
    · exact absurd (h.fresh b p hb') (Option.some.inj hp' ▸ lt_irrefl _)
    · exact h.inj b c p hb' hc'
  alloc p := by
    have hpeer : u.peer rAddr = none := by
      have := h.get rAddr
      rw [hnone] at this
      exact Option.isNone_iff_eq_none.mp (by simpa using this.symm)
    by_cases hp : p = u.fresh
    · subst hp
      simp only [Function.update_self, Option.isSome_some, true_iff]
      exact ⟨rAddr, Function.update_self ..⟩
    · simp only [Function.update_of_ne hp, h.alloc p]
      refine exists_congr fun b => ?_
      rw [update_eq_some]
      constructor
      · intro hb
        refine .inr ⟨?_, hb⟩
        rintro rfl
        cases hpeer.symm.trans hb
      · rintro (⟨_, heq⟩ | ⟨_, hb⟩)
        · exact absurd (Option.some.inj heq).symm hp
        · exact hb
  fresh b p hb := by
    rcases update_eq_some.mp hb with ⟨_, hp⟩ | ⟨_, hb'⟩
    · exact Option.some.inj hp ▸ Nat.lt_succ_self _
    · exact Nat.lt_succ_of_lt (h.fresh b p hb')

theorem Matches.remove (h : u.Matches) (hp : u.peer rAddr = some p) {s : S11Stack}
    (hs : s.peers = u.stack.peers.remove rAddr) :
    Matches { u with stack := s, peer := Function.update u.peer rAddr none,
                     timer := Function.update u.timer p none } where
  get b := by
    rw [hs]
    by_cases hb : b = rAddr
    · subst hb
      simp [Table.get_remove_self]
    · simp [hb, Table.get_remove_of_ne, h.get b]
  inj b c q hb hc := by
    rcases update_eq_some.mp hb with ⟨_, hnone⟩ | ⟨_, hb'⟩
    · cases hnone
    rcases update_eq_some.mp hc with ⟨_, hnone⟩ | ⟨_, hc'⟩
    · cases hnone
    exact h.inj b c q hb' hc'
  alloc q := by
    by_cases hq : q = p
    · subst hq
      simp only [Function.update_self, Option.isSome_none, Bool.false_eq_true, false_iff]
      rintro ⟨b, hb⟩
      rcases update_eq_some.mp hb with ⟨_, hnone⟩ | ⟨hne, hb'⟩
      · cases hnone
      · exact hne (h.inj b rAddr q hb' hp)
    · simp only [Function.update_of_ne hq, h.alloc q]
      refine exists_congr fun b => ?_
      rw [update_eq_some]
      constructor
      · intro hb
        refine .inr ⟨?_, hb⟩
        rintro rfl
        exact hq (Option.some.inj (hb.symm.trans hp))
      · rintro (⟨_, hnone⟩ | ⟨_, hb⟩)
        · cases hnone
        · exact hb
  fresh b q hb := by
    rcases update_eq_some.mp hb with ⟨_, hnone⟩ | ⟨_, hb'⟩
    · cases hnone
    · exact h.fresh b q hb'

end PeerObjects

namespace TimerMgr

/-! ## The invariant -/

variable {m m' : Supervision} {a b p q hint : Nat} {rAddr : Option SockAddr} {t : Timer Nat}
  {o : Option Nat} {R : Option Nat}

/-- Each object has its timer, except for the object `R`, which has none. -/
structure Tracking (R : Option Nat) (m : Supervision) : Prop extends WF m where
  objects : m.user.Matches
  timer : ∀ p o, m.user.timer p = some o → some p ≠ R →
    ∃ a t, o = some a ∧ a ∈ m.timers ∧ m.heap a = some t ∧ t.args = echoTimer p
  live : ∀ a ∈ m.timers, ∃ p t, m.heap a = some t ∧ t.args = echoTimer p ∧ t.rtx = 0 ∧
    some p ≠ R ∧ m.user.timer p = some (some a)

theorem Tracking.congr (h : Tracking R m) (hheap : m'.heap = m.heap) (htimers : m'.timers = m.timers)
    (hnext : m'.next = m.next) (huser : m'.user = m.user) : Tracking R m' := by
  obtain ⟨⟩ := m'
  cases hheap
  cases htimers
  cases hnext
  cases huser
  exact ⟨⟨h.next, h.table, h.nodup⟩, h.objects, h.timer, h.live⟩

theorem tracking_superviseInit (r : UInt8) : Tracking none (superviseInit r) where
  toWF := wf_initTimerMgr _
  objects := ⟨fun _ => rfl, nofun, fun _ => ⟨nofun, nofun⟩, nofun⟩
  timer _ _ h := nomatch h
  live _ h := nomatch h

theorem Tracking.peersSupervised (h : Tracking none m) : m.PeersSupervised := by
  constructor
  · intro rAddr q hq
    obtain ⟨p, hp⟩ := Option.isSome_iff_exists.mp ((h.objects.get rAddr).symm.trans (hq ▸ rfl))
    obtain ⟨o, ho⟩ := Option.isSome_iff_exists.mp ((h.objects.alloc p).mpr ⟨rAddr, hp⟩)
    obtain ⟨a, t, rfl, ha, ht, hargs⟩ := h.timer p o ho nofun
    refine ⟨p, a, hp, ho, fun b => ⟨?_, ?_⟩⟩
    · rintro ⟨hb, u, hu, hup⟩
      obtain ⟨p', u', hu', hargs', _, _, htimer⟩ := h.live b hb
      cases hu.symm.trans hu'
      have hpp : p' = p := by rw [← hup, hargs']; rfl
      rw [hpp, ho] at htimer
      exact (Option.some.inj (Option.some.inj htimer)).symm
    · rintro rfl
      exact ⟨ha, t, ht, hargs ▸ rfl⟩
  · intro b hb
    obtain ⟨p, t, ht, hargs, _, _, htimer⟩ := h.live b hb
    obtain ⟨rAddr, hp⟩ := (h.objects.alloc p).mp (htimer ▸ rfl)
    obtain ⟨q, hq⟩ := Option.isSome_iff_exists.mp ((h.objects.get rAddr).trans (hp ▸ rfl))
    exact ⟨p, rAddr, q, ⟨hb, t, ht, hargs ▸ rfl⟩, hp, hq⟩

/-! ## Stopping and starting a timer -/

/-- The state without the timer at an address. -/
def removed (m : Supervision) (a : Nat) : Supervision :=
  { m with heap := Function.update m.heap a none, timers := m.timers.erase a }

theorem tmStopTimer_eq_removed (ht : m.heap a = some t) (ha : a ∈ m.timers)
    (hargs : t.args = echoTimer p) : m.tmStopTimer nullCb (some a) = .ok (m.removed a) := by
  refine (tmStopTimer_of_mem (f := fun u _ => u) ht ha).trans ?_
  rw [hargs, show (echoTimer p).freed = [] from rfl, log_nil]
  rfl

theorem Tracking.removed (h : Tracking none m) (hp : m.user.timer p = some (some a)) :
    Tracking (some p) (m.removed a) := by
  obtain ⟨a', t, ha', ha, ht, hargs⟩ := h.timer p _ hp nofun
  cases ha'
  have hwf := (h.toWF.erase a).free h.nodup.not_mem_erase
  refine ⟨⟨hwf.next, hwf.table, hwf.nodup⟩, h.objects, fun q o hq hne => ?_, fun b hb => ?_⟩
  · obtain ⟨b, u, rfl, hb, hu, huargs⟩ := h.timer q o hq nofun
    have hba : b ≠ a := by
      rintro rfl
      cases ht.symm.trans hu
      exact hne (congrArg (some ·.cbArgs) (huargs.symm.trans hargs))
    exact ⟨b, u, rfl, h.nodup.mem_erase_iff.mpr ⟨hba, hb⟩, update_none_eq_some.mpr ⟨hba, hu⟩, huargs⟩
  · obtain ⟨hba, hb'⟩ := h.nodup.mem_erase_iff.mp hb
    obtain ⟨q, u, hu, huargs, hrtx, _, hq⟩ := h.live b hb'
    refine ⟨q, u, update_none_eq_some.mpr ⟨hba, hu⟩, huargs, hrtx, fun heq => hba ?_, hq⟩
    rw [Option.some.inj heq, hp] at hq
    exact (Option.some.inj (Option.some.inj hq)).symm

/-- The state with a new timer for a peer. -/
def tracked (m : Supervision) (a p : Nat) : Supervision :=
  { m.withTimer a (echoTimer p) with
    user := { m.user with timer := Function.update m.user.timer p (some (some a)) } }

theorem echoTimer_accepted (p : Nat) : (echoTimer p).Accepted :=
  ⟨⟨(20, 0), rfl, by decide⟩, rfl, (by decide : (1 : UInt32) ≤ 1)⟩

theorem s11peerTrack_eq (hp : m.user.timer p = some o) :
    m.s11peerTrack hint p = .ok (m.tracked (m.gNew hint) p) := by
  simp only [s11peerTrack, hp, tmAddTimer_of_accepted (echoTimer_accepted p), tracked, user_withTimer]

theorem Tracking.tracked (h : Tracking (some p) m) (hp : m.user.timer p = some o)
    (ha : m.heap a = none) : Tracking none (m.tracked a p) := by
  have hwf := h.toWF.withTimer (x := echoTimer p) ha
  refine ⟨⟨hwf.next, hwf.table, hwf.nodup⟩, h.objects.timer hp _, fun q o' hq _ => ?_, fun b hb => ?_⟩
  · by_cases hqp : q = p
    · subst hqp
      have hself : (m.tracked a q).user.timer q = some (some a) := Function.update_self ..
      have ho : o' = some a := (Option.some.inj (hself.symm.trans hq)).symm
      exact ⟨a, _, ho, List.mem_cons_self, update_some_eq_some.mpr (.inl ⟨rfl, rfl⟩), rfl⟩
    · have hq' := (Function.update_of_ne hqp _ _).symm.trans hq
      obtain ⟨b, u, rfl, hb, hu, huargs⟩ := h.timer q o' hq' fun heq => hqp (Option.some.inj heq)
      have hba : b ≠ a := fun heq => h.not_mem ha (heq ▸ hb)
      exact ⟨b, u, rfl, List.mem_cons_of_mem _ hb, update_some_eq_some.mpr (.inr ⟨hba, hu⟩), huargs⟩
  · rcases List.mem_cons.mp hb with rfl | hb'
    · exact ⟨p, _, update_some_eq_some.mpr (.inl ⟨rfl, rfl⟩), rfl, rfl, nofun, Function.update_self ..⟩
    · obtain ⟨q, u, hu, huargs, hrtx, hqp, hq⟩ := h.live b hb'
      have hba : b ≠ a := fun heq => h.not_mem ha (heq ▸ hb')
      have hqp' : q ≠ p := fun heq => hqp (congrArg some heq)
      exact ⟨q, u, update_some_eq_some.mpr (.inr ⟨hba, hu⟩), huargs, hrtx, nofun,
        (Function.update_of_ne hqp' _ _).trans hq⟩

theorem Tracking.stack (h : Tracking R m) {s : S11Stack}
    (hs : ∀ rAddr, (s.peers.get rAddr).isSome = (m.user.stack.peers.get rAddr).isSome) :
    Tracking R { m with user := { m.user with stack := s } } :=
  ⟨⟨h.next, h.table, h.nodup⟩, h.objects.stack hs, h.timer, h.live⟩

theorem Tracking.s11peerUntrack (h : Tracking none m) (hp : m.user.peer rAddr = some p) :
    ∃ a, m.s11peerUntrack p = .ok (m.removed a) ∧ Tracking (some p) (m.removed a) := by
  obtain ⟨o, ho⟩ := Option.isSome_iff_exists.mp ((h.objects.alloc p).mpr ⟨rAddr, hp⟩)
  obtain ⟨a, t, rfl, ha, ht, hargs⟩ := h.timer p o ho nofun
  refine ⟨a, ?_, h.removed ho⟩
  simp only [TimerMgr.s11peerUntrack, ho, tmStopTimer_eq_removed ht ha hargs]

/-! ## The events -/

theorem isSome_get_insert {t : Table (Option SockAddr) S11Peer} {x y : S11Peer}
    (h : t.get rAddr = some x) (b : Option SockAddr) :
    ((t.insert rAddr y).get b).isSome = (t.get b).isSome := by
  by_cases hb : b = rAddr
  · subst hb
    simp [h]
  · rw [Table.get_insert_of_ne _ _ _ _ hb]

theorem isSome_get_checkPeerRestart (s : S11Stack) (rAddr : Option SockAddr) (counter : UInt8)
    (b : Option SockAddr) :
    ((s.checkPeerRestart rAddr counter).peers.get b).isSome = (s.peers.get b).isSome := by
  have h := congrArg Option.isSome
    (congrFun (EMMCtx.numSessions_checkPeerRestart s rAddr counter) b)
  simpa [S11Stack.numSessions] using h

theorem Tracking.s11IsFirstSession (h : Tracking none m) (hint : Nat) (rAddr : Option SockAddr) :
    ∃ m', m.s11IsFirstSession hint rAddr = .ok m' ∧ Tracking none m' := by
  cases hget : m.user.stack.peers.get rAddr with
  | some q =>
    refine ⟨_, ?_, h.stack (s := (m.user.stack.isFirstSession rAddr).2) ?_⟩
    · simp only [TimerMgr.s11IsFirstSession, S11Stack.isFirstSession, hget, Bool.false_eq_true, if_false]
    · intro b
      simp only [S11Stack.isFirstSession, hget]
      exact isSome_get_insert hget b
  | none =>
    have hfresh := h.objects.timer_fresh
    have hne : ∀ q o, m.user.timer q = some o → q ≠ m.user.fresh := by
      rintro q o hq rfl
      cases hfresh.symm.trans hq
    have h₀ : Tracking (some m.user.fresh) { m with user :=
        ⟨{ m.user.stack with peers := m.user.stack.peers.insert rAddr ⟨1, 0, false⟩ },
          Function.update m.user.peer rAddr (some m.user.fresh),
          Function.update m.user.timer m.user.fresh (some none), m.user.fresh + 1⟩ } := by
      refine ⟨⟨h.next, h.table, h.nodup⟩, h.objects.insert hget _, fun q o hq hqR => ?_, fun b hb => ?_⟩
      · have hqf : q ≠ m.user.fresh := fun heq => hqR (congrArg some heq)
        exact h.timer q o ((Function.update_of_ne hqf _ _).symm.trans hq) (by simp)
      · obtain ⟨q, u, hu, huargs, hrtx, _, hq⟩ := h.live b hb
        exact ⟨q, u, hu, huargs, hrtx, fun heq => hne q _ hq (Option.some.inj heq),
          (Function.update_of_ne (hne q _ hq) _ _).trans hq⟩
    refine ⟨_, ?_, h₀.tracked (Function.update_self ..) (heap_gNew h₀.next hint)⟩
    simp only [TimerMgr.s11IsFirstSession, S11Stack.isFirstSession, hget]
    exact s11peerTrack_eq (Function.update_self ..)

theorem Tracking.s11UnrefSession (h : Tracking none m) (rAddr : Option SockAddr) :
    Post (m.s11UnrefSession rAddr) (Tracking none) := by
  unfold TimerMgr.s11UnrefSession
  cases hp : m.user.peer rAddr with
  | none => exact .error
  | some p =>
    obtain ⟨q, hq⟩ := Option.isSome_iff_exists.mp ((h.objects.get rAddr).trans (hp ▸ rfl))
    simp only [S11Stack.unrefSession, hq, ok_bind]
    by_cases hone : q.numSessions = 1
    · -- The last session.
      obtain ⟨a, ha, hremoved⟩ := h.s11peerUntrack hp
      simp only [if_pos hone, Table.get_remove_self, Option.isNone_none, if_true, ha, ok_bind, post_ok]
      refine ⟨⟨hremoved.next, hremoved.table, hremoved.nodup⟩, hremoved.objects.remove hp rfl,
        fun q o hq _ => ?_, fun b hb => ?_⟩
      · have hqp : q ≠ p := by
          rintro rfl
          cases (Function.update_self ..).symm.trans hq
        exact hremoved.timer q o ((Function.update_of_ne hqp _ _).symm.trans hq) fun heq =>
          hqp (Option.some.inj heq)
      · obtain ⟨q, u, hu, huargs, hrtx, hqR, hq⟩ := hremoved.live b hb
        have hqp : q ≠ p := fun heq => hqR (congrArg some heq)
        exact ⟨q, u, hu, huargs, hrtx, by simp, (Function.update_of_ne hqp _ _).trans hq⟩
    · simp only [if_neg hone, Table.get_insert_self, Option.isNone_some, Bool.false_eq_true, if_false,
        post_ok]
      exact h.stack (isSome_get_insert hq)

theorem Tracking.s11peerProcessEchoRsp (h : Tracking none m) (hint : Nat) (rAddr : Option SockAddr)
    (counter : UInt8) : Post (m.s11peerProcessEchoRsp hint rAddr counter) (Tracking none) := by
  unfold TimerMgr.s11peerProcessEchoRsp
  cases hp : m.user.peer rAddr with
  | none => exact .error
  | some p =>
    obtain ⟨o, ho⟩ := Option.isSome_iff_exists.mp ((h.objects.alloc p).mpr ⟨rAddr, hp⟩)
    obtain ⟨a, ha, hremoved⟩ := h.s11peerUntrack hp
    have ho' : (m.removed a).user.timer p = some o := ho
    simp only [ha, ok_bind, s11peerTrack_eq ho', post_ok]
    exact (hremoved.tracked ho' (heap_gNew hremoved.next hint)).stack
      (isSome_get_checkPeerRestart _ rAddr counter)

/-- The callback starts the next timer and the manager removes the one that expired, which comes to the
same as the other way round. -/
theorem Tracking.expires (h : Tracking none m) (ha : a ∈ m.timers) (hint : Nat) :
    ∃ m', m.timerCb (s11peerSendEcho hint) nullCb nullCb a = .ok m' ∧ Tracking none m' := by
  obtain ⟨p, t, ht, hargs, hrtx, _, hp⟩ := h.live a ha
  have hwf := h.toWF.tick ht [.expires, .cbTo]
  obtain ⟨a', ha'⟩ : ∃ a', a' = (m.tick a t [.expires, .cbTo]).gNew hint := ⟨_, rfl⟩
  have hnew := ha' ▸ heap_gNew hwf.next hint
  have hne : a' ≠ a := by
    rintro rfl
    cases hnew.symm.trans (heap_tick_self _)
  have hcb : s11peerSendEcho hint (m.tick a t [.expires, .cbTo]) a t.args.cbArgs =
      .ok ((m.tick a t [.expires, .cbTo]).tracked a' p) := by
    rw [hargs, ha']
    exact s11peerTrack_eq hp
  have hstop : ((m.tick a t [.expires, .cbTo]).tracked a' p).tmStopTimer nullCb (some a) =
      .ok (((m.tick a t [.expires, .cbTo]).tracked a' p).removed a) :=
    tmStopTimer_eq_removed (update_some_eq_some.mpr (.inr ⟨hne.symm, heap_tick_self _⟩))
      (List.mem_cons_of_mem _ ha) hargs
  have hfirst := (h.removed hp).tracked hp ((Function.update_of_ne hne _ _).trans
      ((Function.update_of_ne hne _ _).symm.trans hnew))
  have hsame : ∀ m' : Supervision, m'.heap = ((m.removed a).tracked a' p).heap →
      m'.timers = ((m.removed a).tracked a' p).timers → m'.next = ((m.removed a).tracked a' p).next →
      m'.user = ((m.removed a).tracked a' p).user → Tracking none m' := fun _ => hfirst.congr
  refine ⟨_, ?_, hsame (((m.tick a t [.expires, .cbTo]).tracked a' p).removed a) ?_ ?_ rfl rfl⟩
  · have hle : t.rtx + 1 ≤ t.args.maxRtx := by
      rw [hrtx, hargs]
      exact (by decide : (0 : UInt32) + 1 ≤ 1)
    have hlast : (!t.args.cbMaxTo && t.rtx + 1 == t.args.maxRtx) = true := by
      rw [hrtx, hargs]
      rfl
    rw [timerCb_eq ht, if_pos hle, hcb, ok_bind, hlast, TimerMgr.stopLast,
      if_pos ⟨rfl, List.mem_cons_of_mem _ ha⟩, hstop]
  · show Function.update (Function.update (Function.update m.heap a _) a' _) a none =
      Function.update (Function.update m.heap a none) a' _
    rw [Function.update_comm hne, Function.update_idem]
    rfl
  · exact List.erase_cons_tail (by simpa using hne)

theorem Tracking.superviseStep (h : Tracking none m) (ev : SupervisionEvent) :
    Post (m.superviseStep ev) (Tracking none) := by
  cases ev with
  | session hint rAddr =>
    obtain ⟨m', hm', h'⟩ := h.s11IsFirstSession hint rAddr
    show Post (m.s11IsFirstSession hint rAddr) _
    rw [hm']
    exact .ok h'
  | unref rAddr => exact h.s11UnrefSession rAddr
  | echoRsp hint rAddr counter => exact h.s11peerProcessEchoRsp hint rAddr counter
  | recovery rAddr counter =>
    exact .ok (h.stack (isSome_get_checkPeerRestart _ rAddr counter))
  | expires hint a =>
    refine .ite (fun ha => ?_) fun _ => .ok h
    obtain ⟨m', hm', h'⟩ := h.expires ha hint
    rw [hm']
    exact .ok h'

/-- In every state reached, each peer in the table has exactly one live timer, the one in its field `t`, and
no live timer refers to a peer that is not in the table.  An expiration is always processed. -/
theorem peersSupervised_of_run {r : UInt8} {evs : List SupervisionEvent} {m : Supervision}
    (hrun : Run superviseStep (fun _ _ => True) (superviseInit r) evs m) :
    m.PeersSupervised ∧ ∀ hint a, ∃ m', m.superviseStep (.expires hint a) = .ok m' := by
  have h := hrun.invariant (I := Tracking none)
    (fun _ ev _ h _ hstep => h.superviseStep ev _ hstep) (tracking_superviseInit r)
  refine ⟨h.peersSupervised, fun hint a => ?_⟩
  by_cases ha : a ∈ m.timers
  · obtain ⟨m', hm', _⟩ := h.expires ha hint
    exact ⟨m', (if_pos ha).trans hm'⟩
  · exact ⟨m, if_neg ha⟩

/-- Two peers; the first one has two sessions, its timer expires twice, an Echo Response comes, and the
second one is removed. -/
def sampleSupervision : List SupervisionEvent :=
  [.session 0 (some ⟨1, 2123⟩), .session 1 (some ⟨2, 2123⟩), .session 0 (some ⟨1, 2123⟩), .expires 0 0,
    .expires 0 2, .echoRsp 0 (some ⟨1, 2123⟩) 3, .unref (some ⟨2, 2123⟩), .unref (some ⟨1, 2123⟩)]

theorem peersSupervised_of_run_sample : ∃ m, Run superviseStep (fun _ _ => True) (superviseInit 0)
    sampleSupervision m ∧ m.PeersSupervised ∧ m.timers = [0] ∧ m.user.timer 0 = some (some 0) := by
  refine Run.exists_of_exec (fun m => m.timers = [0] ∧ m.user.timer 0 = some (some 0)) (by decide +kernel) ?_
  exact fun m hrun h => ⟨(peersSupervised_of_run hrun).1, h⟩

end TimerMgr

end AaltoMME
