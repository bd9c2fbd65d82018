import AaltoMME.Platform

/-!
# The timer manager

`Common/timermgr.c`.  A timer is a record on the heap, the manager keeps the set of the addresses
of the timers that run, and `timer_cb` decides by address whether a timer survived its own
callback.  Addresses are given out again once they are freed, so the model carries the heap: the
allocator may return any address that is not in use (the argument `hint` of `tmAddTimer`).

A callback is given by what it does to the whole state, which has a part `user` for the data of
the client.  Callbacks may therefore add and stop timers, the one that is being processed included.

Two things are recorded and never read by the model: the number of a timer, in the order in which
timers were added, and the trace of what happened to each number.
-/

namespace AaltoMME

open Base

/-- The arguments of `tm_add_timer` apart from the manager: a NULL `tv` is `none`, and of a
callback it is kept whether it is not NULL. -/
structure TimerArgs (α : Type) where
  /-- Seconds and microseconds. -/
  tv : Option (Nat × Nat)
  maxRtx : UInt32
  cbTo : Bool
  cbMaxTo : Bool
  cbFree : Bool
  cbArgs : α
  deriving DecidableEq, Repr

/-- `Timer_t`, with the number of the timer. -/
structure Timer (α : Type) where
  args : TimerArgs α
  rtx : UInt32
  num : Nat
  deriving DecidableEq, Repr

/-- What can happen to a timer. -/
inductive TimerAct
  /-- The event of the timer fires. -/
  | expires
  | cbTo
  | cbMaxTo
  /-- A client calls `tm_stop_timer`. -/
  | stopped
  | cbFree
  deriving DecidableEq, Repr

/-- `TimerMgr_t` and the memory of its timers. -/
structure TimerMgr (α σ : Type) where
  heap : Nat → Option (Timer α)
  timers : List Nat
  /-- No address from here on was ever given out. -/
  next : Nat
  /-- The arguments of all timers added so far, by number. -/
  added : List (TimerArgs α)
  trace : List (Nat × TimerAct)
  user : σ

/-- A `Timer_cb`, applied to the address of the timer and to `cb_args`. -/
abbrev TimerCb (α σ : Type) : Type := TimerMgr α σ → Nat → α → Outcome (TimerMgr α σ)

namespace TimerMgr

variable {α σ : Type} (m : TimerMgr α σ)

/-- `init_timerMgr`. -/
def initTimerMgr (user : σ) : TimerMgr α σ := ⟨fun _ => none, [], 0, [], [], user⟩

/-- The state in which something more has happened to a timer. -/
def log (num : Nat) (acts : List TimerAct) : TimerMgr α σ :=
  { m with trace := m.trace ++ acts.map (num, ·) }

/-- What has happened to a timer, in order. -/
def history (num : Nat) : List TimerAct := (m.trace.filter (·.1 = num)).map (·.2)

/-- The timer with this number is in the table of the manager. -/
def Live (num : Nat) : Prop := ∃ a ∈ m.timers, ∃ t, m.heap a = some t ∧ t.num = num

/-- The address that `g_new0` returns. -/
def gNew (hint : Nat) : Nat := if (m.heap hint).isNone then hint else m.next

/-- `tm_add_timer`. -/
def tmAddTimer (hint : Nat) (x : TimerArgs α) : TimerMgr α σ × Option Nat :=
  match x.tv with
  | none => (m, none)
  | some tv =>
    if !x.cbTo then (m, none)
    else if tv.1 = 0 ∧ tv.2 = 0 then (m, none)
    else if x.maxRtx < 1 then (m, none)
    else
      let t := m.gNew hint
      ({ m with
          heap := Function.update m.heap t (some ⟨x, 0, m.added.length⟩)
          timers := t :: m.timers
          next := max m.next (t + 1)
          added := m.added ++ [x] }, some t)

/-- `*t` -/
def timerAt (a : Nat) : Outcome (Timer α) :=
  match m.heap a with
  | none => .error .useAfterFree
  | some t => .ok t

/-- `free_timer`. -/
def freeTimer (cbFree : TimerCb α σ) (a : Nat) (t : Timer α) : Outcome (TimerMgr α σ) :=
  if t.args.cbFree then cbFree (m.log t.num [.cbFree]) a t.args.cbArgs else .ok m

/-- `g_free(t)`: a fault if the memory of this timer has been freed already. -/
def gFree (a : Nat) (t : Timer α) : Outcome (TimerMgr α σ) := do
  let u ← m.timerAt a
  if u.num = t.num then .ok { m with heap := Function.update m.heap a none }
  else .error .useAfterFree

/-- `tm_stop_timer`.  `g_hash_table_remove` calls `free_timer` once the entry is gone. -/
def tmStopTimer (cbFree : TimerCb α σ) : Option Nat → Outcome (TimerMgr α σ)
  | none => .ok m
  | some a => do
    let t ← m.timerAt a
    let m ← if a ∈ m.timers then
        freeTimer { m with timers := m.timers.erase a } cbFree a t
      else .ok m
    m.gFree a t

/-- The last lines of `timer_cb`, where `last` says that nothing is left to do for the timer. -/
def stopLast (cbFree : TimerCb α σ) (a : Nat) (last : Bool) : Outcome (TimerMgr α σ) :=
  if last ∧ a ∈ m.timers then m.tmStopTimer cbFree (some a) else .ok m

/-- `timer_cb`. -/
def timerCb (cbTo cbMaxTo cbFree : TimerCb α σ) (a : Nat) : Outcome (TimerMgr α σ) := do
  let t ← m.timerAt a
  let rtx := t.rtx + 1
  let m := { m with heap := Function.update m.heap a (some { t with rtx }) }
  if rtx ≤ t.args.maxRtx then
    let m ← cbTo (m.log t.num [.expires, .cbTo]) a t.args.cbArgs
    m.stopLast cbFree a (!t.args.cbMaxTo && rtx == t.args.maxRtx)
  else if t.args.cbMaxTo then
    let m ← cbMaxTo (m.log t.num [.expires, .cbMaxTo]) a t.args.cbArgs
    m.stopLast cbFree a true
  else .error .nullCall

end TimerMgr

/-- The arguments for which `tm_add_timer` creates a timer. -/
def TimerArgs.Accepted {α : Type} (x : TimerArgs α) : Prop :=
  (∃ tv, x.tv = some tv ∧ ¬ (tv.1 = 0 ∧ tv.2 = 0)) ∧ x.cbTo ∧ 1 ≤ x.maxRtx

/-- What `free_timer` records. -/
def TimerArgs.freed {α : Type} (x : TimerArgs α) : List TimerAct := if x.cbFree then [.cbFree] else []

namespace TimerMgr

variable {α σ : Type} {m m' : TimerMgr α σ} {a n hint : Nat} {t : Timer α} {x : TimerArgs α}

/-! ## The record of a timer -/

theorem history_log_self (acts : List TimerAct) :
    (m.log n acts).history n = m.history n ++ acts := by
  have hf : (acts.map (n, ·)).filter (·.1 = n) = acts.map (n, ·) :=
    List.filter_eq_self.mpr fun e he => by
      obtain ⟨act, _, rfl⟩ := List.mem_map.mp he
      exact decide_eq_true rfl
  simp only [history, log, List.filter_append, List.map_append, hf, List.map_map]
  exact congrArg _ (List.map_id _)

theorem history_log_of_ne {k : Nat} (acts : List TimerAct) (h : k ≠ n) :
    (m.log n acts).history k = m.history k := by
  have hf : (acts.map (n, ·)).filter (·.1 = k) = [] :=
    List.filter_eq_nil_iff.mpr fun e he => by
      obtain ⟨act, _, rfl⟩ := List.mem_map.mp he
      exact fun h' => h (of_decide_eq_true h').symm
  simp only [history, log, List.filter_append, hf, List.append_nil]

theorem log_log (l l' : List TimerAct) : (m.log n l).log n l' = m.log n (l ++ l') := by
  simp only [log, List.map_append, List.append_assoc]

@[simp] theorem log_nil : m.log n [] = m := by
  simp only [log, List.map_nil, List.append_nil]

theorem freeTimer_eq (cbFree : TimerCb α σ) : m.freeTimer cbFree a t =
    if t.args.cbFree then cbFree (m.log t.num t.args.freed) a t.args.cbArgs
    else .ok (m.log t.num t.args.freed) := by
  unfold freeTimer TimerArgs.freed
  split
  · rfl
  · rw [log_nil]

/-! ## The heap -/

theorem timerAt_eq_ok : m.timerAt a = .ok t ↔ m.heap a = some t := by
  unfold timerAt
  cases m.heap a with
  | none => simp
  | some u => simp

theorem gFree_eq_ok : m.gFree a t = .ok m' ↔
    (∃ u, m.heap a = some u ∧ u.num = t.num) ∧
      m' = { m with heap := Function.update m.heap a none } := by
  unfold gFree
  rw [bind_eq_ok]
  constructor
  · rintro ⟨u, hu, h⟩
    split at h
    · next hnum => exact ⟨⟨u, timerAt_eq_ok.mp hu, hnum⟩, (Except.ok.inj h).symm⟩
    · cases h
  · rintro ⟨⟨u, hu, hnum⟩, rfl⟩
    exact ⟨u, timerAt_eq_ok.mpr hu, if_pos hnum⟩

theorem heap_gNew (hnext : ∀ b t, m.heap b = some t → b < m.next) (hint : Nat) :
    m.heap (m.gNew hint) = none := by
  unfold gNew
  split
  · next h => exact Option.isNone_iff_eq_none.mp h
  · cases hn : m.heap m.next with
    | none => rfl
    | some t => exact absurd (hnext _ _ hn) (Nat.lt_irrefl _)

theorem gNew_eq (m : TimerMgr α σ) (hint : Nat) : m.gNew hint = hint ∨ m.gNew hint = m.next := by
  unfold gNew
  split
  · exact .inl rfl
  · exact .inr rfl

theorem update_some_eq_some {f : Nat → Option (Timer α)} {b : Nat} {u : Timer α} :
    Function.update f a (some t) b = some u ↔ b = a ∧ u = t ∨ b ≠ a ∧ f b = some u := by
  by_cases hba : b = a
  · subst hba
    simp [eq_comm]
  · simp [hba]

theorem update_none_eq_some {f : Nat → Option (Timer α)} {b : Nat} {u : Timer α} :
    Function.update f a none b = some u ↔ b ≠ a ∧ f b = some u := by
  by_cases hba : b = a
  · subst hba
    simp
  · simp [hba]

/-! ## Adding and stopping -/

/-- The state with a new timer at an address. -/
def withTimer (m : TimerMgr α σ) (a : Nat) (x : TimerArgs α) : TimerMgr α σ :=
  { m with
    heap := Function.update m.heap a (some ⟨x, 0, m.added.length⟩)
    timers := a :: m.timers
    next := max m.next (a + 1)
    added := m.added ++ [x] }

@[simp] theorem user_withTimer : (m.withTimer a x).user = m.user := rfl

theorem tmAddTimer_of_accepted (hx : x.Accepted) :
    m.tmAddTimer hint x = (m.withTimer (m.gNew hint) x, some (m.gNew hint)) := by
  obtain ⟨⟨tv, htv, h0⟩, hto, hmax⟩ := hx
  have hmax' := UInt32.not_lt.mpr hmax
  simp only [tmAddTimer, htv, hto, Bool.not_true, Bool.false_eq_true, if_false, if_neg h0,
    if_neg hmax', withTimer]

theorem tmAddTimer_of_not_accepted (hx : ¬ x.Accepted) : m.tmAddTimer hint x = (m, none) := by
  unfold tmAddTimer
  cases htv : x.tv with
  | none => rfl
  | some tv =>
    show (if _ then _ else _) = _
    split
    · rfl
    next hto =>
    split
    · rfl
    next h0 =>
    split
    · rfl
    next hmax => exact absurd ⟨⟨tv, htv, h0⟩, by simpa using hto, UInt32.not_lt.mp hmax⟩ hx

/-- What `tm_stop_timer` does to a timer of the table: the entry goes, `cb_free` runs, and the
memory goes. -/
theorem tmStopTimer_eq_ok_of_mem {cbFree : TimerCb α σ} (ht : m.heap a = some t)
    (ha : a ∈ m.timers) : m.tmStopTimer cbFree (some a) = .ok m' ↔
    ∃ m₁, freeTimer { m with timers := m.timers.erase a } cbFree a t = .ok m₁ ∧
      m₁.gFree a t = .ok m' := by
  simp only [tmStopTimer, timerAt_eq_ok.mpr ht, ok_bind, if_pos ha]
  exact bind_eq_ok

/-- A timer of the table is stopped, when `cb_free` only changes the data of the client. -/
theorem tmStopTimer_of_mem {f : σ → α → σ} (ht : m.heap a = some t) (ha : a ∈ m.timers) :
    m.tmStopTimer (fun m _ y => .ok { m with user := f m.user y }) (some a) =
      .ok { m.log t.num t.args.freed with
        heap := Function.update m.heap a none
        timers := m.timers.erase a
        user := if t.args.cbFree then f m.user t.args.cbArgs else m.user } := by
  rw [tmStopTimer_eq_ok_of_mem ht ha]
  refine ⟨{ m.log t.num t.args.freed with
      timers := m.timers.erase a
      user := if t.args.cbFree then f m.user t.args.cbArgs else m.user },
    ?_, gFree_eq_ok.mpr ⟨⟨t, ht, rfl⟩, rfl⟩⟩
  rw [freeTimer_eq]
  by_cases hc : t.args.cbFree = true
  · simp only [if_pos hc]
    rfl
  · simp only [if_neg hc]
    rfl

theorem tmStopTimer_of_not_mem {cbFree : TimerCb α σ} (ht : m.heap a = some t)
    (ha : a ∉ m.timers) : m.tmStopTimer cbFree (some a) =
    .ok { m with heap := Function.update m.heap a none } := by
  simp only [tmStopTimer, timerAt_eq_ok.mpr ht, if_neg ha]
  exact gFree_eq_ok.mpr ⟨⟨t, ht, rfl⟩, rfl⟩

theorem exists_of_tmStopTimer {cbFree : TimerCb α σ}
    (h : m.tmStopTimer cbFree (some a) = .ok m') : ∃ t, m.heap a = some t := by
  obtain ⟨t, ht, _⟩ := bind_eq_ok.mp h
  exact ⟨t, timerAt_eq_ok.mp ht⟩

/-! ## Expirations -/

/-- The state in which a timer has expired once more. -/
def tick (m : TimerMgr α σ) (a : Nat) (t : Timer α) (acts : List TimerAct) : TimerMgr α σ :=
  log { m with heap := Function.update m.heap a (some { t with rtx := t.rtx + 1 }) } t.num acts

theorem heap_tick_self (acts : List TimerAct) :
    (m.tick a t acts).heap a = some { t with rtx := t.rtx + 1 } := Function.update_self ..

theorem timerCb_eq {cbTo cbMaxTo cbFree : TimerCb α σ} (ht : m.heap a = some t) :
    m.timerCb cbTo cbMaxTo cbFree a =
      if t.rtx + 1 ≤ t.args.maxRtx then do
        let m ← cbTo (m.tick a t [.expires, .cbTo]) a t.args.cbArgs
        m.stopLast cbFree a (!t.args.cbMaxTo && t.rtx + 1 == t.args.maxRtx)
      else if t.args.cbMaxTo then do
        let m ← cbMaxTo (m.tick a t [.expires, .cbMaxTo]) a t.args.cbArgs
        m.stopLast cbFree a true
      else .error .nullCall := by
  simp only [timerCb, timerAt_eq_ok.mpr ht]
  rfl

/-! ## The table and the heap -/

/-- The table lists timers on the heap, each once, and fresh addresses are fresh. -/
structure WF (m : TimerMgr α σ) : Prop where
  next : ∀ a t, m.heap a = some t → a < m.next
  table : ∀ a ∈ m.timers, ∃ t, m.heap a = some t
  nodup : m.timers.Nodup

theorem wf_initTimerMgr (user : σ) : WF (initTimerMgr user : TimerMgr α σ) :=
  ⟨nofun, nofun, .nil⟩

theorem WF.not_mem (h : WF m) (ha : m.heap a = none) : a ∉ m.timers := fun hmem => by
  obtain ⟨t, ht⟩ := h.table a hmem
  cases ha.symm.trans ht

theorem WF.withTimer (h : WF m) (ha : m.heap a = none) : WF (m.withTimer a x) where
  next b u hb := by
    rcases update_some_eq_some.mp hb with ⟨rfl, _⟩ | ⟨_, hb'⟩
    · exact Nat.lt_of_lt_of_le (Nat.lt_succ_self _) (Nat.le_max_right _ _)
    · exact Nat.lt_of_lt_of_le (h.next b u hb') (Nat.le_max_left _ _)
  table b hb := by
    rcases List.mem_cons.mp hb with rfl | hb
    · exact ⟨_, update_some_eq_some.mpr (.inl ⟨rfl, rfl⟩)⟩
    · have hba : b ≠ a := fun heq => h.not_mem ha (heq ▸ hb)
      exact (h.table b hb).imp fun t ht => update_some_eq_some.mpr (.inr ⟨hba, ht⟩)
  nodup := List.nodup_cons.mpr ⟨h.not_mem ha, h.nodup⟩

theorem WF.erase (h : WF m) (a : Nat) : WF { m with timers := m.timers.erase a } :=
  ⟨h.next, fun b hb => h.table b (List.mem_of_mem_erase hb), h.nodup.erase a⟩

theorem WF.free (h : WF m) (ha : a ∉ m.timers) :
    WF { m with heap := Function.update m.heap a none } where
  next b u hb := h.next b u (update_none_eq_some.mp hb).2
  table b hb := by
    have hba : b ≠ a := fun heq => ha (heq ▸ hb)
    exact (h.table b hb).imp fun t ht => update_none_eq_some.mpr ⟨hba, ht⟩
  nodup := h.nodup

theorem WF.tick (h : WF m) (ht : m.heap a = some t) (acts : List TimerAct) :
    WF (m.tick a t acts) where
  next b u hb := by
    rcases update_some_eq_some.mp hb with ⟨rfl, _⟩ | ⟨_, hb'⟩
    · exact h.next b t ht
    · exact h.next b u hb'
  table b hb := by
    by_cases hba : b = a
    · exact ⟨_, update_some_eq_some.mpr (.inl ⟨hba, rfl⟩)⟩
    · exact (h.table b hb).imp fun u hu => update_some_eq_some.mpr (.inr ⟨hba, hu⟩)
  nodup := h.nodup

end TimerMgr

end AaltoMME
