import AaltoMME.Common.TimerMgr

/-!
# The schedule of a timer

What a timer goes through between `tm_add_timer` and its end: `cb_to` at each of the first
`max_rtx` expirations, `cb_maxTo` at the next one, and `cb_free` at the end, with a call of
`tm_stop_timer` possible at any moment.  The clients are arbitrary: each callback runs a finite
script that adds and stops timers, and the callbacks run by a stop have scripts of their own.

`timer_cb` looks for the timer in the table after the callback, and it looks for the address.  A
callback that stops its own timer and adds another one may find the new timer at that address, and
`timer_cb` then stops the new timer.  The schedule holds in the runs in which that does not happen
at a last expiration, and in which no timer with a `cb_maxTo` is repeated 2³² - 1 times, for then
the counter wraps around before it passes the maximum.
-/

namespace AaltoMME

open Base TimerMgr

/-! ## The shape of a history -/

/-- The first `k` expirations. -/
def rounds (k : Nat) : List TimerAct := (List.replicate k [.expires, .cbTo]).flatten

theorem rounds_succ (k : Nat) : rounds (k + 1) = rounds k ++ [.expires, .cbTo] := by
  unfold rounds
  rw [List.replicate_succ', List.flatten_append]
  rfl

theorem length_rounds (k : Nat) : (rounds k).length = 2 * k := by
  induction k with
  | zero => rfl
  | succ k ih =>
    rw [rounds_succ, List.length_append, ih]
    rfl

namespace TimerArgs

variable {α : Type} (x : TimerArgs α)

/-- The counter of expirations passes `max_rtx` without wrapping around. -/
def Counts : Prop := x.cbMaxTo → x.maxRtx ≠ 0xFFFFFFFF

instance : Decidable x.Counts := inferInstanceAs (Decidable (_ → _))

/-- The history of a timer that waits for its next expiration. -/
def Pending (h : List TimerAct) : Prop :=
  ∃ k, h = rounds k ∧ (k < x.maxRtx.toNat ∨ k = x.maxRtx.toNat ∧ x.cbMaxTo)

/-- The histories that a timer can end with. -/
inductive Ended : List TimerAct → Prop
  /-- It was stopped after `k` expirations. -/
  | stopped (k : Nat) : k ≤ x.maxRtx.toNat → Ended (rounds k ++ [.stopped] ++ x.freed)
  /-- It ran to the end, without a `cb_maxTo`. -/
  | ranOut : ¬ x.cbMaxTo → Ended (rounds x.maxRtx.toNat ++ x.freed)
  /-- It ran to the end, with a `cb_maxTo`. -/
  | maxedOut : x.cbMaxTo → Ended (rounds x.maxRtx.toNat ++ [.expires, .cbMaxTo] ++ x.freed)
  /-- It was stopped in its `cb_maxTo`. -/
  | stoppedLast : x.cbMaxTo →
    Ended (rounds x.maxRtx.toNat ++ [.expires, .cbMaxTo] ++ [.stopped] ++ x.freed)

/-- The history of a live timer with `rtx` expirations; `last` says that its last callback is
running. -/
inductive Shape (rtx : Nat) (last : Prop) : List TimerAct → Prop
  | pending : rtx ≤ x.maxRtx.toNat → (¬ last → rtx < x.maxRtx.toNat ∨ x.cbMaxTo) →
    Shape rtx last (rounds rtx)
  | final : last → x.cbMaxTo → rtx = x.maxRtx.toNat + 1 →
    Shape rtx last (rounds x.maxRtx.toNat ++ [.expires, .cbMaxTo])

variable {x} {rtx : Nat} {last : Prop} {h : List TimerAct}

theorem Shape.ended (hs : x.Shape rtx last h) : x.Ended (h ++ [.stopped] ++ x.freed) := by
  cases hs with
  | pending hle _ => exact .stopped rtx hle
  | final _ hmax _ => exact .stoppedLast hmax

theorem Shape.pending_of_not (hs : x.Shape rtx last h) (hlast : ¬ last) :
    h = rounds rtx ∧ (rtx < x.maxRtx.toNat ∨ rtx = x.maxRtx.toNat ∧ x.cbMaxTo) := by
  cases hs with
  | pending hle hnot =>
    rcases Nat.lt_or_eq_of_le hle with hlt | heq
    · exact ⟨rfl, .inl hlt⟩
    · exact ⟨rfl, (hnot hlast).imp id fun hmax => ⟨heq, hmax⟩⟩
  | final h _ _ => exact absurd h hlast

theorem Shape.mono {last' : Prop} (hs : x.Shape rtx last h) (himp : last → last') :
    x.Shape rtx last' h := by
  cases hs with
  | pending hle hnot => exact .pending hle fun h => hnot (h ∘ himp)
  | final h hmax hrtx => exact .final (himp h) hmax hrtx

end TimerArgs

/-! ## The system -/

/-- What a client does with the manager.  Stopping a timer runs its `cb_free`, whose script is
`onFree`. -/
inductive TimerOp
  | add (hint : Nat) (x : TimerArgs Unit)
  | stop (timer : Option Nat) (onFree : List TimerOp)

/-- An event of the system: a call of a client, or the expiration of the timer at an address. -/
inductive TimerEvent
  | op (o : TimerOp)
  | expires (timer : Nat) (inCb onFree : List TimerOp)

/-- The manager, without data of the clients. -/
abbrev Timers : Type := TimerMgr Unit Unit

/-- Records that a client stops a timer of the table. -/
def TimerMgr.logStop (m : Timers) : Option Nat → Timers
  | none => m
  | some a => match m.heap a with
    | none => m
    | some t => if a ∈ m.timers then m.log t.num [.stopped] else m

mutual

def TimerOp.run : TimerOp → Timers → Outcome Timers
  | .add hint x, m => .ok (m.tmAddTimer hint x).1
  | .stop a onFree, m => (m.logStop a).tmStopTimer (fun m _ _ => TimerOp.runAll onFree m) a

def TimerOp.runAll : List TimerOp → Timers → Outcome Timers
  | [], m => .ok m
  | o :: os, m => do
    let m ← o.run m
    TimerOp.runAll os m

end

mutual

/-- The places that the allocator chooses in a call. -/
def TimerOp.hints : TimerOp → List Nat
  | .add hint _ => [hint]
  | .stop _ onFree => TimerOp.hintsAll onFree

/-- The places that the allocator chooses in a script. -/
def TimerOp.hintsAll : List TimerOp → List Nat
  | [] => []
  | o :: os => o.hints ++ TimerOp.hintsAll os

end

mutual

/-- The timers that a call tries to add. -/
def TimerOp.adds : TimerOp → List (TimerArgs Unit)
  | .add _ x => [x]
  | .stop _ onFree => TimerOp.addsAll onFree

/-- The timers that a script tries to add. -/
def TimerOp.addsAll : List TimerOp → List (TimerArgs Unit)
  | [] => []
  | o :: os => o.adds ++ TimerOp.addsAll os

end

namespace TimerMgr

/-- The next expiration of the timer is the last one that it has a callback for. -/
def LastRun {α : Type} (t : Timer α) : Prop :=
  t.rtx.toNat = t.args.maxRtx.toNat ∨ t.rtx.toNat + 1 = t.args.maxRtx.toNat ∧ ¬ t.args.cbMaxTo

instance {α : Type} (t : Timer α) : Decidable (LastRun t) :=
  inferInstanceAs (Decidable (_ ∨ _))

/-- A step of the system.  Only the events of timers in the table fire. -/
def step (m : Timers) : TimerEvent → Outcome Timers
  | .op o => o.run m
  | .expires a inCb onFree =>
    if a ∈ m.timers then
      m.timerCb (fun m _ _ => TimerOp.runAll inCb m) (fun m _ _ => TimerOp.runAll inCb m)
        (fun m _ _ => TimerOp.runAll onFree m) a
    else .ok m

/-- The timers added count without wrapping around, and in the last callback of a timer none is
added at its address. -/
def Separate (m : Timers) : TimerEvent → Prop
  | .op o => ∀ x ∈ o.adds, x.Counts
  | .expires a inCb onFree =>
    (∀ x ∈ TimerOp.addsAll inCb ++ TimerOp.addsAll onFree, x.Counts) ∧
      ((m.heap a).any (LastRun ·) → a ∉ TimerOp.hintsAll inCb)

instance (m : Timers) (ev : TimerEvent) : Decidable (m.Separate ev) :=
  match ev with
  | .op o => inferInstanceAs (Decidable (∀ x ∈ o.adds, x.Counts))
  | .expires a inCb onFree => inferInstanceAs (Decidable
      ((∀ x ∈ TimerOp.addsAll inCb ++ TimerOp.addsAll onFree, x.Counts) ∧
        ((m.heap a).any (LastRun ·) → a ∉ TimerOp.hintsAll inCb)))

/-- Every timer that was ever added keeps to its schedule: a live one waits for its next
expiration, and any other one has ended.  The event of a live timer can be processed. -/
def Scheduled (m : Timers) : Prop :=
  (∀ n x, m.added[n]? = some x →
    m.Live n ∧ x.Pending (m.history n) ∨ ¬ m.Live n ∧ x.Ended (m.history n)) ∧
  ∀ a ∈ m.timers, ∃ m', m.step (.expires a [] []) = .ok m'

/-! ## The invariant -/

variable {α σ : Type} {m m' m'' : TimerMgr α σ} {a : Nat} {t : Timer α} {x : TimerArgs α}
  {H H' : List Nat} {R : Option Nat}

/-- The invariant of the manager while the last callback of the timer with number `R` is running,
or at a time when no last callback is running. -/
structure Ok (R : Option Nat) (m : TimerMgr α σ) : Prop extends WF m where
  record : ∀ a t, m.heap a = some t → m.added[t.num]? = some t.args
  inj : ∀ a b t u, m.heap a = some t → m.heap b = some u → t.num = u.num → a = b
  counts : ∀ x ∈ m.added, 1 ≤ x.maxRtx.toNat ∧ x.Counts
  live : ∀ a ∈ m.timers, ∀ t, m.heap a = some t →
    t.args.Shape t.rtx.toNat (R = some t.num) (m.history t.num)
  ended : ∀ n x, m.added[n]? = some x → ¬ m.Live n → x.Ended (m.history n)
  fresh : ∀ n, m.added.length ≤ n → m.history n = []

/-- What a piece of client code cannot do: old timers do not come back, and new ones are at an
address that the allocator chose. -/
structure Frame (H : List Nat) (m m' : TimerMgr α σ) : Prop where
  next_le : m.next ≤ m'.next
  added_le : m.added.length ≤ m'.added.length
  heap : ∀ a t, m'.heap a = some t →
    m.heap a = some t ∨ m.added.length ≤ t.num ∧ (a ∈ H ∨ m.next ≤ a)
  timers : ∀ a ∈ m'.timers, ∀ t, m'.heap a = some t → t.num < m.added.length → a ∈ m.timers

theorem Frame.refl (m : TimerMgr α σ) : Frame H m m where
  next_le := Nat.le_refl _
  added_le := Nat.le_refl _
  heap _ _ h := .inl h
  timers _ h _ _ _ := h

theorem Frame.heap_of_lt (h : Frame H m m') (ht : m'.heap a = some t)
    (hn : t.num < m.added.length) : m.heap a = some t :=
  (h.heap a t ht).resolve_right fun hr => Nat.not_lt.mpr hr.1 hn

theorem Frame.trans (h : Frame H m m') (h' : Frame H' m' m'') : Frame (H ++ H') m m'' where
  next_le := Nat.le_trans h.next_le h'.next_le
  added_le := Nat.le_trans h.added_le h'.added_le
  heap a t ht := by
    rcases h'.heap a t ht with hold | ⟨hnum, hplace⟩
    · exact (h.heap a t hold).imp_right fun hr => ⟨hr.1, hr.2.imp_left (List.mem_append_left _)⟩
    · exact .inr ⟨Nat.le_trans h.added_le hnum,
        hplace.imp (List.mem_append_right _) (Nat.le_trans h.next_le)⟩
  timers a ha t ht hn := by
    have hn' := Nat.lt_of_lt_of_le hn h.added_le
    exact h.timers a (h'.timers a ha t ht hn') t (h'.heap_of_lt ht hn') hn

theorem Frame.mono (h : Frame H m m') (hH : ∀ a ∈ H, a ∈ H') : Frame H' m m' :=
  { h with heap := fun a t ht => (h.heap a t ht).imp_right fun hr => ⟨hr.1, hr.2.imp_left (hH a)⟩ }

theorem Frame.not_live (h : Frame H m m') {n : Nat} (hn : n < m.added.length)
    (hl : ¬ m.Live n) : ¬ m'.Live n := by
  rintro ⟨a, ha, t, ht, rfl⟩
  exact hl ⟨a, h.timers a ha t ht hn, t, h.heap_of_lt ht hn, rfl⟩

theorem Ok.num_lt (h : Ok R m) (ht : m.heap a = some t) : t.num < m.added.length :=
  (List.getElem?_eq_some_iff.mp (h.record a t ht)).1

/-- The invariant outside of last callbacks, once the timer of the last one is over. -/
theorem Ok.none_of_not_live {n : Nat} (h : Ok (some n) m) (hl : ¬ m.Live n) : Ok none m :=
  { h with
    live := fun a ha t ht => (h.live a ha t ht).mono fun heq =>
      absurd ⟨a, ha, t, ht, (Option.some.inj heq).symm⟩ hl }

theorem ok_initTimerMgr (user : σ) : Ok none (initTimerMgr user : TimerMgr α σ) where
  toWF := wf_initTimerMgr user
  record _ _ h := nomatch h
  inj _ _ _ _ h := nomatch h
  counts _ h := nomatch h
  live _ h := nomatch h
  ended _ _ h := nomatch h
  fresh _ _ := rfl

/-! ## One operation -/

theorem Ok.tmAddTimer (h : Ok R m) (hint : Nat) (hx : x.Counts) :
    Ok R (m.tmAddTimer hint x).1 ∧ Frame [hint] m (m.tmAddTimer hint x).1 := by
  by_cases hacc : x.Accepted
  swap
  · rw [tmAddTimer_of_not_accepted hacc]
    exact ⟨h, .refl m⟩
  rw [tmAddTimer_of_accepted hacc]
  have hfree := heap_gNew h.next hint
  have hold : ∀ b t, (m.withTimer (m.gNew hint) x).heap b = some t →
      b = m.gNew hint ∧ t = ⟨x, 0, m.added.length⟩ ∨ b ≠ m.gNew hint ∧ m.heap b = some t :=
    fun _ _ => update_some_eq_some.mp
  constructor
  · constructor
    case toWF => exact h.toWF.withTimer hfree
    case record =>
      intro b t hb
      rcases hold b t hb with ⟨_, rfl⟩ | ⟨_, hb'⟩
      · exact List.getElem?_concat_length
      · exact (List.getElem?_append_left (h.num_lt hb')).trans (h.record b t hb')
    case inj =>
      intro b c t u hb hc hnum
      rcases hold b t hb with ⟨rfl, rfl⟩ | ⟨_, hb'⟩ <;> rcases hold c u hc with ⟨rfl, rfl⟩ | ⟨_, hc'⟩
      · rfl
      · exact absurd hnum.symm (Nat.ne_of_lt (h.num_lt hc'))
      · exact absurd hnum (Nat.ne_of_lt (h.num_lt hb'))
      · exact h.inj b c t u hb' hc' hnum
    case counts =>
      intro y hy
      rcases List.mem_append.mp hy with hy | hy
      · exact h.counts y hy
      · rw [List.mem_singleton.mp hy]
        exact ⟨UInt32.le_iff_toNat_le.mp hacc.2.2, hx⟩
    case live =>
      intro b hb t ht
      rcases hold b t ht with ⟨_, rfl⟩ | ⟨hba, ht'⟩
      · show x.Shape 0 _ (m.history _)
        rw [h.fresh _ (Nat.le_refl _)]
        exact .pending (Nat.zero_le _) fun _ => .inl (UInt32.le_iff_toNat_le.mp hacc.2.2)
      · exact h.live b ((List.mem_cons.mp hb).resolve_left hba) t ht'
    case ended =>
      intro n y hy hl
      rcases Nat.lt_or_ge n m.added.length with hn | hn
      · refine h.ended n y ((List.getElem?_append_left hn).symm.trans hy) fun ⟨b, hb, t, ht, hnum⟩ =>
          hl ⟨b, List.mem_cons_of_mem _ hb, t, ?_, hnum⟩
        have hba : b ≠ m.gNew hint := fun heq => h.not_mem hfree (heq ▸ hb)
        exact update_some_eq_some.mpr (.inr ⟨hba, ht⟩)
      · have hlen : n < (m.added ++ [x]).length := (List.getElem?_eq_some_iff.mp hy).1
        rw [List.length_append, List.length_singleton] at hlen
        have heq : n = m.added.length := by omega
        exact absurd ⟨_, List.mem_cons_self, _, Function.update_self .., heq.symm⟩ hl
    case fresh =>
      intro n hn
      have hlen : (m.added ++ [x]).length ≤ n := hn
      rw [List.length_append] at hlen
      exact h.fresh n (Nat.le_of_add_right_le hlen)
  · constructor
    · exact Nat.le_max_left _ _
    · exact (List.length_append ▸ Nat.le_add_right _ _)
    · intro b t hb
      rcases hold b t hb with ⟨rfl, rfl⟩ | ⟨_, hb'⟩
      · exact .inr ⟨Nat.le_refl _, (gNew_eq m hint).imp List.mem_singleton.mpr fun h => Nat.le_of_eq h.symm⟩
      · exact .inl hb'
    · intro b hb t ht hn
      rcases hold b t ht with ⟨_, rfl⟩ | ⟨hba, _⟩
      · exact absurd hn (Nat.lt_irrefl _)
      · exact (List.mem_cons.mp hb).resolve_left hba

theorem Ok.close (h : Ok R m) (ht : m.heap a = some t) (ha : a ∈ m.timers) {acts : List TimerAct}
    (hend : t.args.Ended (m.history t.num ++ acts)) :
    Ok R (log { m with timers := m.timers.erase a } t.num acts) ∧
      Frame [] m (log { m with timers := m.timers.erase a } t.num acts) ∧
      ¬ (log { m with timers := m.timers.erase a } t.num acts).Live t.num := by
  have hmem : ∀ b ∈ m.timers.erase a, b ≠ a ∧ b ∈ m.timers := fun b hb =>
    (h.nodup.mem_erase_iff).mp hb
  have hne : ∀ b ∈ m.timers.erase a, ∀ u, m.heap b = some u → u.num ≠ t.num := fun b hb u hu heq =>
    (hmem b hb).1 (h.inj b a u t hu ht heq)
  have hhist : ∀ k, k ≠ t.num → (log { m with timers := m.timers.erase a } t.num acts).history k =
      m.history k := fun k hk => history_log_of_ne acts hk
  refine ⟨?_, ?_, ?_⟩
  · constructor
    case toWF => exact ⟨h.next, (h.toWF.erase a).table, h.nodup.erase a⟩
    case record => exact h.record
    case inj => exact h.inj
    case counts => exact h.counts
    case live =>
      intro b hb u hu
      rw [hhist _ (hne b hb u hu)]
      exact h.live b (hmem b hb).2 u hu
    case ended =>
      intro n y hy hl
      by_cases hn : n = t.num
      · subst hn
        cases (h.record a t ht).symm.trans hy
        rw [history_log_self]
        exact hend
      · rw [hhist n hn]
        refine h.ended n y hy fun ⟨b, hb, u, hu, hnum⟩ => hl ⟨b, ?_, u, hu, hnum⟩
        refine h.nodup.mem_erase_iff.mpr ⟨?_, hb⟩
        rintro rfl
        exact hn (hnum ▸ congrArg Timer.num (Option.some.inj (hu.symm.trans ht)))
    case fresh =>
      intro n hn
      have hlt := h.num_lt ht
      exact (hhist n fun heq => Nat.not_lt.mpr hn (heq ▸ hlt)).trans (h.fresh n hn)
  · exact ⟨Nat.le_refl _, Nat.le_refl _, fun _ _ hb => .inl hb, fun b hb _ _ _ => (hmem b hb).2⟩
  · rintro ⟨b, hb, u, hu, hnum⟩
    exact hne b hb u hu hnum

theorem Ok.free (h : Ok R m) (ha : a ∉ m.timers) :
    Ok R { m with heap := Function.update m.heap a none } ∧
      Frame [] m { m with heap := Function.update m.heap a none } := by
  have hold : ∀ b u, Function.update m.heap a none b = some u → m.heap b = some u :=
    fun _ _ hb => (update_none_eq_some.mp hb).2
  have hkept : ∀ b ∈ m.timers, ∀ u, m.heap b = some u → Function.update m.heap a none b = some u := by
    intro b hb u hu
    exact update_none_eq_some.mpr ⟨fun heq => ha (heq ▸ hb), hu⟩
  refine ⟨?_, ⟨Nat.le_refl _, Nat.le_refl _, fun b u hb => .inl (hold b u hb), fun b hb _ _ _ => hb⟩⟩
  exact { h with
    toWF := h.toWF.free ha
    record := fun b u hb => h.record b u (hold b u hb)
    inj := fun b c u v hb hc => h.inj b c u v (hold b u hb) (hold c v hc)
    live := fun b hb u hu => h.live b hb u (hold b u hu)
    ended := fun n y hy hl => h.ended n y hy fun ⟨b, hb, u, hu, hnum⟩ =>
      hl ⟨b, hb, u, hkept b hb u hu, hnum⟩ }

/-- `tm_stop_timer` for a timer of the table, given what its `cb_free` keeps. -/
theorem Ok.tmStopTimer {cbFree : TimerCb α σ}
    (hfree : ∀ m m' b y, Ok R m → cbFree m b y = .ok m' → Ok R m' ∧ Frame H m m')
    (h : Ok R m) (ht : m.heap a = some t) (ha : a ∈ m.timers) {acts : List TimerAct}
    (hend : t.args.Ended (m.history t.num ++ acts ++ t.args.freed))
    (hrun : (m.log t.num acts).tmStopTimer cbFree (some a) = .ok m') :
    Ok R m' ∧ Frame H m m' ∧ ¬ m'.Live t.num := by
  rw [List.append_assoc] at hend
  obtain ⟨hc, hfc, hlc⟩ := h.close ht ha hend
  obtain ⟨m₁, hm₁, hg⟩ := (tmStopTimer_eq_ok_of_mem (m := m.log t.num acts) ht ha).mp hrun
  have h₁ : Ok R m₁ ∧ Frame H (log { m with timers := m.timers.erase a } t.num
      (acts ++ t.args.freed)) m₁ := by
    rw [freeTimer_eq] at hm₁
    rw [← log_log] at hc ⊢
    split at hm₁
    · exact hfree _ _ _ _ hc hm₁
    · cases hm₁
      exact ⟨hc, .refl _⟩
  obtain ⟨⟨u, hu, hnum⟩, rfl⟩ := gFree_eq_ok.mp hg
  have hlt := h.num_lt ht
  have ha₁ : a ∉ m₁.timers := fun hmem =>
    h.nodup.not_mem_erase (h₁.2.timers a hmem u hu (hnum ▸ hlt))
  obtain ⟨h₂, hf₂⟩ := h₁.1.free ha₁
  have hf := (h₁.2.trans hf₂).mono fun b hb => (List.append_nil H) ▸ hb
  exact ⟨h₂, hfc.trans hf, hf.not_live hlt hlc⟩

/-! ## Scripts -/

theorem Ok.logStop_tmStopTimer {m m' : Timers} {cbFree : TimerCb Unit Unit}
    (hfree : ∀ m m' b y, Ok R m → cbFree m b y = .ok m' → Ok R m' ∧ Frame H m m')
    (h : Ok R m) {o : Option Nat} (hrun : (m.logStop o).tmStopTimer cbFree o = .ok m') :
    Ok R m' ∧ Frame H m m' := by
  cases o with
  | none =>
    cases hrun
    exact ⟨h, .refl _⟩
  | some a =>
    cases ht : m.heap a with
    | none =>
      simp only [logStop, ht] at hrun
      obtain ⟨t, ht'⟩ := exists_of_tmStopTimer hrun
      cases ht.symm.trans ht'
    | some t =>
      simp only [logStop, ht] at hrun
      by_cases ha : a ∈ m.timers
      · rw [if_pos ha] at hrun
        obtain ⟨hok, hf, _⟩ := h.tmStopTimer hfree ht ha (h.live a ha t ht).ended hrun
        exact ⟨hok, hf⟩
      · rw [if_neg ha, tmStopTimer_of_not_mem ht ha] at hrun
        cases hrun
        obtain ⟨hok, hf⟩ := h.free ha
        exact ⟨hok, hf.mono nofun⟩

mutual

theorem Ok.run : ∀ (o : TimerOp), (∀ x ∈ o.adds, x.Counts) → ∀ {m m' : Timers}, Ok R m →
    o.run m = .ok m' → Ok R m' ∧ Frame o.hints m m'
  | .add hint x, hx, m, m', h, hrun => by
    obtain rfl := Except.ok.inj hrun
    exact h.tmAddTimer hint (hx x (List.mem_singleton.mpr rfl))
  | .stop a onFree, hx, m, m', h, hrun =>
    h.logStop_tmStopTimer (fun _ _ _ _ h₁ hrun₁ => Ok.runAll onFree hx h₁ hrun₁) hrun

theorem Ok.runAll : ∀ (os : List TimerOp), (∀ x ∈ TimerOp.addsAll os, x.Counts) →
    ∀ {m m' : Timers}, Ok R m → TimerOp.runAll os m = .ok m' →
    Ok R m' ∧ Frame (TimerOp.hintsAll os) m m'
  | [], _, m, m', h, hrun => by
    obtain rfl := Except.ok.inj hrun
    exact ⟨h, .refl _⟩
  | o :: os, hx, m, m', h, hrun => by
    obtain ⟨m₁, hm₁, hrun⟩ := bind_eq_ok.mp hrun
    obtain ⟨h₁, hf₁⟩ := Ok.run o (fun x hmem => hx x (List.mem_append_left _ hmem)) h hm₁
    obtain ⟨h₂, hf₂⟩ := Ok.runAll os (fun x hmem => hx x (List.mem_append_right _ hmem)) h₁ hrun
    exact ⟨h₂, hf₁.trans hf₂⟩

end

/-! ## Expirations -/

theorem Ok.tick (h : Ok none m) (ht : m.heap a = some t) (ha : a ∈ m.timers)
    {acts : List TimerAct}
    (hs : t.args.Shape (t.rtx + 1).toNat (R = some t.num) (m.history t.num ++ acts)) :
    Ok R (m.tick a t acts) := by
  have hold : ∀ b u, (m.tick a t acts).heap b = some u →
      b = a ∧ u = { t with rtx := t.rtx + 1 } ∨ b ≠ a ∧ m.heap b = some u :=
    fun _ _ => update_some_eq_some.mp
  -- The record on the heap keeps its number and its arguments.
  have hsame : ∀ b u, (m.tick a t acts).heap b = some u →
      ∃ v, m.heap b = some v ∧ v.num = u.num ∧ v.args = u.args := by
    intro b u hb
    rcases hold b u hb with ⟨rfl, rfl⟩ | ⟨_, hb'⟩
    · exact ⟨t, ht, rfl, rfl⟩
    · exact ⟨u, hb', rfl, rfl⟩
  have hback : ∀ b v, m.heap b = some v → ∃ u, (m.tick a t acts).heap b = some u ∧ u.num = v.num := by
    intro b v hb
    by_cases hba : b = a
    · subst hba
      cases ht.symm.trans hb
      exact ⟨_, heap_tick_self acts, rfl⟩
    · exact ⟨v, update_some_eq_some.mpr (.inr ⟨hba, hb⟩), rfl⟩
  have hhist : ∀ k, k ≠ t.num → (m.tick a t acts).history k = m.history k := fun k hk =>
    history_log_of_ne acts hk
  constructor
  case toWF => exact h.toWF.tick ht acts
  case record =>
    intro b u hb
    obtain ⟨v, hv, hnum, hargs⟩ := hsame b u hb
    rw [← hnum, ← hargs]
    exact h.record b v hv
  case inj =>
    intro b c u v hb hc hnum
    obtain ⟨u', hu', hunum, _⟩ := hsame b u hb
    obtain ⟨v', hv', hvnum, _⟩ := hsame c v hc
    exact h.inj b c u' v' hu' hv' (hunum.trans (hnum.trans hvnum.symm))
  case counts => exact h.counts
  case live =>
    intro b hb u hu
    rcases hold b u hu with ⟨rfl, rfl⟩ | ⟨hba, hu'⟩
    · rw [show (m.tick b t acts).history t.num = m.history t.num ++ acts from history_log_self acts]
      exact hs
    · have hne : u.num ≠ t.num := fun heq => hba (h.inj b a u t hu' ht heq)
      rw [hhist _ hne]
      exact (h.live b hb u hu').mono nofun
  case ended =>
    intro n y hy hl
    have hl' : ¬ m.Live n := fun ⟨b, hb, v, hv, hnum⟩ => by
      obtain ⟨u, hu, hunum⟩ := hback b v hv
      exact hl ⟨b, hb, u, hu, hunum.trans hnum⟩
    rw [hhist n fun heq => hl' ⟨a, ha, t, ht, heq.symm⟩]
    exact h.ended n y hy hl'
  case fresh =>
    intro n hn
    have hlt := h.num_lt ht
    exact (hhist n fun heq => Nat.not_lt.mpr hn (heq ▸ hlt)).trans (h.fresh n hn)

/-- After a last callback the timer is gone, when no other timer has come to its address. -/
theorem Ok.stopLast {cbFree : TimerCb α σ} {m₁ m₂ : TimerMgr α σ}
    (hfree : ∀ m m' b y, Ok (some t.num) m → cbFree m b y = .ok m' →
      Ok (some t.num) m' ∧ Frame H' m m')
    (h₁ : Ok (some t.num) m₁) (ht : m₁.heap a = some t) (h₂ : Ok (some t.num) m₂)
    (hf : Frame H m₁ m₂) (hH : a ∉ H)
    (hend : ∀ l, t.args.Shape t.rtx.toNat True l → t.args.Ended (l ++ t.args.freed))
    (hrun : m₂.stopLast cbFree a true = .ok m') : Ok none m' := by
  unfold TimerMgr.stopLast at hrun
  split at hrun
  · next hmem =>
    obtain ⟨u, hu⟩ := h₂.table a hmem.2
    have hut := (hf.heap a u hu).resolve_right fun ⟨_, hplace⟩ =>
      hplace.elim hH (Nat.not_le.mpr (h₁.next a t ht))
    obtain rfl := Option.some.inj (hut.symm.trans ht)
    have hs := (h₂.live a hmem.2 u hu).mono fun _ => trivial
    have hend' : u.args.Ended (m₂.history u.num ++ [] ++ u.args.freed) := by
      rw [List.append_nil]
      exact hend _ hs
    rw [← log_nil (m := m₂)] at hrun
    obtain ⟨h₃, _, hl⟩ := h₂.tmStopTimer hfree hu hmem.2 hend' hrun
    exact h₃.none_of_not_live hl
  · next hmem =>
    cases hrun
    refine h₂.none_of_not_live fun ⟨b, hb, u, hu, hnum⟩ => hmem ⟨rfl, ?_⟩
    have hlt := hnum ▸ h₁.num_lt ht
    obtain rfl := h₁.inj b a u t (hf.heap_of_lt hu hlt) ht hnum
    exact hb

theorem Ok.toNat_rtx_succ (h : Ok none m) (ht : m.heap a = some t) (ha : a ∈ m.timers) :
    (t.rtx + 1).toNat = t.rtx.toNat + 1 := by
  obtain ⟨_, hcounts⟩ := h.counts t.args (List.mem_of_getElem? (h.record a t ht))
  obtain ⟨_, hle⟩ := (h.live a ha t ht).pending_of_not nofun
  have hmax := t.args.maxRtx.toNat_lt
  have hlt : t.rtx.toNat + 1 < 2 ^ 32 := by
    rcases hle with hlt | ⟨heq, hto⟩
    · omega
    · have hne : t.args.maxRtx.toNat ≠ 2 ^ 32 - 1 := fun heq =>
        hcounts hto (UInt32.toNat_inj.mp heq)
      omega
  exact Nat.mod_eq_of_lt hlt

/-- `timer_cb` keeps the invariant, given what the callbacks keep. -/
theorem Ok.timerCb {cbTo cbMaxTo cbFree : TimerCb α σ}
    (hcb : ∀ R m m' b y, Ok R m → cbTo m b y = .ok m' ∨ cbMaxTo m b y = .ok m' →
      Ok R m' ∧ Frame H m m')
    (hfree : ∀ R m m' b y, Ok R m → cbFree m b y = .ok m' → Ok R m' ∧ Frame H' m m')
    (h : Ok none m) (ht : m.heap a = some t) (ha : a ∈ m.timers) (hH : LastRun t → a ∉ H)
    (hrun : m.timerCb cbTo cbMaxTo cbFree a = .ok m') : Ok none m' := by
  rw [timerCb_eq ht] at hrun
  obtain ⟨hhist, hle⟩ := (h.live a ha t ht).pending_of_not nofun
  have hsucc := h.toNat_rtx_succ ht ha
  have hround : m.history t.num ++ [.expires, .cbTo] = rounds (t.rtx + 1).toNat := by
    rw [hhist, hsucc, rounds_succ]
  split at hrun
  · next hmax =>
    have hmax' := UInt32.le_iff_toNat_le.mp hmax
    obtain ⟨m₂, hm₂, hrun⟩ := bind_eq_ok.mp hrun
    by_cases hlast : (!t.args.cbMaxTo && t.rtx + 1 == t.args.maxRtx) = true
    · rw [hlast] at hrun
      obtain ⟨hto, heq⟩ := Bool.and_eq_true_iff.mp hlast
      have hto' : ¬ t.args.cbMaxTo = true := by simpa using hto
      have heq' : (t.rtx + 1).toNat = t.args.maxRtx.toNat := congrArg _ (eq_of_beq heq)
      have h₁ : Ok (some t.num) (m.tick a t [.expires, .cbTo]) :=
        h.tick ht ha
          (hround ▸ .pending hmax' (absurd rfl))
      obtain ⟨h₂, hf⟩ := hcb _ _ _ _ _ h₁ (.inl hm₂)
      refine h₁.stopLast (t := { t with rtx := t.rtx + 1 }) (hfree _) (heap_tick_self _) h₂ hf
        (hH (.inr ⟨hsucc ▸ heq', hto'⟩)) (fun l hl => ?_) hrun
      cases hl with
      | pending _ _ => exact heq' ▸ .ranOut hto'
      | final _ hto _ => exact absurd hto hto'
    · have h₁ : Ok none (m.tick a t [.expires, .cbTo]) := by
        refine h.tick ht ha (hround ▸ .pending hmax' fun _ => ?_)
        rcases Nat.lt_or_eq_of_le hmax' with hlt | heq
        · exact .inl hlt
        · refine .inr (by_contra fun hto => hlast ?_)
          rw [Bool.and_eq_true_iff]
          exact ⟨by simpa using hto, beq_iff_eq.mpr (UInt32.toNat_inj.mp heq)⟩
      obtain ⟨h₂, _⟩ := hcb _ _ _ _ _ h₁ (.inl hm₂)
      rw [TimerMgr.stopLast, if_neg fun hc => hlast hc.1] at hrun
      exact Except.ok.inj hrun ▸ h₂
  · next hmax =>
    have hmax' : ¬ (t.rtx + 1).toNat ≤ t.args.maxRtx.toNat := fun hle =>
      hmax (UInt32.le_iff_toNat_le.mpr hle)
    obtain ⟨heq, hto⟩ := hle.resolve_left fun hlt => hmax' (hsucc ▸ hlt)
    rw [if_pos hto] at hrun
    obtain ⟨m₂, hm₂, hrun⟩ := bind_eq_ok.mp hrun
    have h₁ : Ok (some t.num) (m.tick a t [.expires, .cbMaxTo]) := by
      refine h.tick ht ha ?_
      rw [hhist, heq]
      exact .final rfl hto (hsucc.trans (congrArg (· + 1) heq))
    obtain ⟨h₂, hf⟩ := hcb _ _ _ _ _ h₁ (.inr hm₂)
    refine h₁.stopLast (t := { t with rtx := t.rtx + 1 }) (hfree _) (heap_tick_self _) h₂ hf
      (hH (.inl heq)) (fun l hl => ?_) hrun
    cases hl with
    | pending hle _ => exact absurd hle hmax'
    | final _ hto _ => exact .maxedOut hto

/-- The event of a live timer can be processed when its callbacks do nothing. -/
theorem Ok.exists_step {m : Timers} (h : Ok none m) (ha : a ∈ m.timers) :
    ∃ m', m.step (.expires a [] []) = .ok m' := by
  obtain ⟨t, ht⟩ := h.table a ha
  have hstop : ∀ acts last, ∃ m', (m.tick a t acts).stopLast
      (fun m _ _ => TimerOp.runAll [] m) a last = .ok m' := by
    intro acts last
    unfold TimerMgr.stopLast
    split
    · exact ⟨_, tmStopTimer_of_mem (f := fun u _ => u)
        (heap_tick_self acts) ha⟩
    · exact ⟨_, rfl⟩
  obtain ⟨_, hle⟩ := (h.live a ha t ht).pending_of_not nofun
  show ∃ m', (if a ∈ m.timers then _ else _) = _
  rw [if_pos ha, timerCb_eq ht]
  split
  · exact hstop _ _
  · next hmax =>
    have hmax' : ¬ t.rtx.toNat + 1 ≤ t.args.maxRtx.toNat := fun hle =>
      hmax (UInt32.le_iff_toNat_le.mpr (h.toNat_rtx_succ ht ha ▸ hle))
    obtain ⟨_, hto⟩ := hle.resolve_left hmax'
    rw [if_pos hto]
    exact hstop _ _

/-! ## Runs -/

theorem Ok.step {m m' : Timers} (h : Ok none m) {ev : TimerEvent} (hsep : m.Separate ev)
    (hstep : m.step ev = .ok m') : Ok none m' := by
  cases ev with
  | op o => exact (Ok.run o hsep h hstep).1
  | expires a inCb onFree =>
    obtain ⟨hadds, hlast⟩ := hsep
    change (if a ∈ m.timers then _ else _) = _ at hstep
    split at hstep
    · next ha =>
      obtain ⟨t, ht⟩ := h.table a ha
      have hfree : ∀ (R) (m m' : Timers) (_ : Nat) (_ : Unit), Ok R m →
          TimerOp.runAll onFree m = .ok m' → Ok R m' ∧ Frame (TimerOp.hintsAll onFree) m m' :=
        fun _ _ _ _ _ h₁ => Ok.runAll onFree (fun x hx => hadds x (List.mem_append_right _ hx)) h₁
      refine h.timerCb (fun R m m' _ _ h₁ hrun => ?_) hfree ht ha (fun hl => hlast ?_) hstep
      · exact Ok.runAll inCb (fun x hx => hadds x (List.mem_append_left _ hx)) h₁ (hrun.elim id id)
      · rw [ht]
        exact decide_eq_true hl
    · exact Except.ok.inj hstep ▸ h

theorem Ok.scheduled {m : Timers} (h : Ok none m) : m.Scheduled := by
  refine ⟨fun n x hx => ?_, fun a ha => h.exists_step ha⟩
  by_cases hl : m.Live n
  · refine .inl ⟨hl, ?_⟩
    obtain ⟨a, ha, t, ht, rfl⟩ := hl
    cases (h.record a t ht).symm.trans hx
    exact ⟨t.rtx.toNat, (h.live a ha t ht).pending_of_not nofun⟩
  · exact .inr ⟨hl, h.ended n x hx hl⟩

/-- In every run in which the timers added count without wrapping around, and in which no timer is
added at the address of the one whose last callback is running, every timer keeps to its schedule. -/
theorem scheduled_of_run {evs : List TimerEvent} {m : Timers}
    (hrun : Run step Separate (initTimerMgr ()) evs m) : m.Scheduled :=
  (hrun.invariant (I := Ok none) (fun _ _ _ h hsep hstep => h.step hsep hstep)
    (ok_initTimerMgr ())).scheduled

/-- A timer with the given `max_rtx` and, if so wanted, a `cb_maxTo`. -/
def sampleTimer (maxRtx : UInt32) (cbMaxTo : Bool) : TimerArgs Unit :=
  ⟨some (1, 0), maxRtx, true, cbMaxTo, true, ()⟩

/-- Two timers; the one that runs out after two expirations stops the other one in its `cb_to`, and
adds a third one in its `cb_maxTo`, which is stopped before it expires. -/
def sampleSchedule : List TimerEvent :=
  [.op (.add 0 (sampleTimer 2 true)), .op (.add 1 (sampleTimer 5 false)), .expires 1 [] [],
    .expires 0 [.stop (some 1) []] [], .expires 0 [] [], .expires 0 [.add 1 (sampleTimer 3 true)] [],
    .op (.stop (some 1) [])]

theorem scheduled_of_run_sample : ∃ m, Run step Separate (initTimerMgr ()) sampleSchedule m ∧
    m.Scheduled ∧ m.history 0 = rounds 2 ++ [.expires, .cbMaxTo, .cbFree] := by
  refine Run.exists_of_exec (fun m => m.history 0 = rounds 2 ++ [.expires, .cbMaxTo, .cbFree]) (by decide +kernel) ?_
  exact fun m hrun hhist => ⟨scheduled_of_run hrun, hhist⟩

/-! ## Where the schedule fails -/

/-- A timer that never expired and was not stopped has not ended. -/
theorem not_ended {x : TimerArgs α} (hmax : 1 ≤ x.maxRtx.toNat) : ¬ x.Ended [.cbFree] := by
  obtain ⟨k, hk⟩ : ∃ k, x.maxRtx.toNat = k + 1 := ⟨_, (Nat.sub_add_cancel hmax).symm⟩
  -- Every ending has a stop or a first round.
  have hmem : ∀ l, x.Ended l → .stopped ∈ l ∨ .cbTo ∈ l := by
    intro l hl
    cases hl with
    | stopped _ _ => exact .inl (by simp)
    | ranOut _ => exact .inr (by simp [hk, rounds_succ])
    | maxedOut _ => exact .inr (by simp [hk, rounds_succ])
    | stoppedLast _ => exact .inl (by simp)
  intro hend
  exact absurd (hmem _ hend) (by decide)

/-- The `cb_maxTo` of a timer stops it and adds another one, for which the allocator returns the
memory just freed. -/
def reuse : List TimerEvent :=
  [.op (.add 0 (sampleTimer 1 true)), .expires 0 [] [],
    .expires 0 [.stop (some 0) [], .add 0 (sampleTimer 3 true)] []]

theorem exists_run_rounds (k : Nat) : ∃ m t, Run step (fun _ _ => True) (initTimerMgr ())
    (.op (.add 0 (sampleTimer 0xFFFFFFFF true)) :: List.replicate k (.expires 0 [] [])) m ∧
    m.heap 0 = some t ∧ t.args = sampleTimer 0xFFFFFFFF true ∧ t.num = 0 ∧ m.timers = [0] ∧
    m.added = [sampleTimer 0xFFFFFFFF true] ∧ m.history 0 = rounds k := by
  induction k with
  | zero =>
    exact ⟨_, _, Run.single trivial rfl, rfl, rfl, rfl, rfl, rfl, rfl⟩
  | succ k ih =>
    obtain ⟨m, t, hrun, ht, hargs, hnum, hmem, hadded, hhist⟩ := ih
    have hle : t.rtx + 1 ≤ t.args.maxRtx := by
      rw [hargs]
      exact UInt32.le_iff_toNat_le.mpr (Nat.le_of_lt_succ (t.rtx + 1).toNat_lt)
    have hstep : m.step (.expires 0 [] []) = .ok (m.tick 0 t [.expires, .cbTo]) := by
      show (if 0 ∈ m.timers then _ else _) = _
      rw [if_pos (hmem ▸ List.mem_singleton_self _), timerCb_eq ht, if_pos hle, hargs]
      rfl
    refine ⟨m.tick 0 t [.expires, .cbTo], { t with rtx := t.rtx + 1 }, ?_, heap_tick_self _,
      hargs, hnum, hmem, hadded, ?_⟩
    · rw [List.replicate_succ']
      exact hrun.snoc trivial hstep
    · rw [rounds_succ, ← hhist, ← hnum]
      exact history_log_self _

/-- Without the two conditions the schedule fails.  A timer is stopped without having expired and
without a call of `tm_stop_timer`, because it has the address of the one whose last callback added
it; and a timer that is repeated 2³² - 1 times never gets to its `cb_maxTo`. -/
theorem not_scheduled_of_reuse :
    (∃ m, Run step (fun _ _ => True) (initTimerMgr ()) reuse m ∧
      m.added[1]? = some (sampleTimer 3 true) ∧ m.timers = [] ∧ m.history 1 = [.cbFree] ∧
      ¬ m.Scheduled) ∧
    ∃ evs m, Run step (fun _ _ => True) (initTimerMgr ()) evs m ∧
      m.added[0]? = some (sampleTimer 0xFFFFFFFF true) ∧ m.history 0 = rounds (2 ^ 32) ∧
      ¬ m.Scheduled := by
  constructor
  · refine Run.exists_of_exec (fun m => m.added[1]? = some (sampleTimer 3 true) ∧ m.timers = [] ∧
      m.history 1 = [.cbFree]) (by decide +kernel) ?_
    rintro m - ⟨hadded, htimers, hhist⟩
    refine ⟨hadded, htimers, hhist, fun hsch => ?_⟩
    rcases hsch.1 1 _ hadded with ⟨⟨a, ha, _⟩, _⟩ | ⟨_, hend⟩
    · rw [htimers] at ha
      exact nomatch ha
    · rw [hhist] at hend
      exact not_ended (by decide) hend
  · obtain ⟨m, t, hrun, ht, _, hnum, hmem, hadded, hhist⟩ := exists_run_rounds (2 ^ 32)
    have hx : m.added[0]? = some (sampleTimer 0xFFFFFFFF true) := by rw [hadded]; rfl
    refine ⟨_, m, hrun, hx, hhist, fun hsch => ?_⟩
    rcases hsch.1 0 _ hx with ⟨_, k, hk, hlt⟩ | ⟨hl, _⟩
    · have hlen := congrArg List.length (hhist.symm.trans hk)
      rw [length_rounds, length_rounds] at hlen
      have hmax : (sampleTimer 0xFFFFFFFF true).maxRtx.toNat = 2 ^ 32 - 1 := rfl
      omega
    · exact hl ⟨0, hmem ▸ List.mem_singleton_self _, t, ht, hnum⟩

end TimerMgr

end AaltoMME
