import AaltoMME.S11.Responses

/-!
# The restart counters of the peers

A serving gateway counts its restarts in eight bits and tells the counter in its messages.  The peer keeps the last
counter and whether there was one; a restart is detected when a greater counter comes, or a small one after 255.  The
stack is taken with everything that happens to its peers: sessions come and go, and counters are received.
-/

namespace AaltoMME

open Base NAS

/-! ## Observations of a counter -/

namespace Observations

/-- Counters in the order in which they were received, the last one first: each one is repeated, or is followed by the
next one. -/
def InOrder : List UInt8 → Prop
  | [] => True
  | [_] => True
  | n :: m :: l => (n = m ∨ n = m + 1) ∧ InOrder (m :: l)

/-- Where the counter changes; the first one is no change. -/
def changes : List UInt8 → List Bool
  | [] => []
  | [_] => [false]
  | n :: m :: l => (n ≠ m) :: changes (m :: l)

end Observations

/-! ## One counter -/

namespace S11Peer

/-- The rest of `s11peer_hasRestarted`, for the peer that was found. -/
def observe (p : S11Peer) (counter : UInt8) : Bool × S11Peer :=
  if counter > p.restartCounter || (counter < 2 && p.restartCounter > 254) then
    (p.restartValid, { p with restartCounter := counter, restartValid := true })
  else (false, { p with restartValid := true })

/-- What is known of the counters that were received. -/
def Saw (p : S11Peer) : List UInt8 → Prop
  | [] => p.restartCounter = 0 ∧ p.restartValid = false
  | n :: _ => p.restartCounter = n ∧ p.restartValid = true

theorem lt_or_wraps (m : UInt8) : m + 1 > m ∨ m + 1 < 2 ∧ m > 254 := by
  simp only [UInt8.lt_iff_toNat_lt, UInt8.toNat_add, UInt8.reduceToNat]
  have := m.toNat_lt
  omega

theorem observe_first {p : S11Peer} (h : p.Saw []) (n : UInt8) :
    (p.observe n).1 = false ∧ (p.observe n).2.Saw [n] := by
  obtain ⟨hcounter, hvalid⟩ := h
  unfold observe
  split
  · exact ⟨hvalid, rfl, rfl⟩
  · rename_i hle
    refine ⟨rfl, ?_, rfl⟩
    rw [hcounter] at hle ⊢
    by_contra hne
    refine hle (Bool.or_eq_true _ _ |>.mpr (.inl (decide_eq_true ?_)))
    rw [gt_iff_lt, UInt8.lt_iff_toNat_lt]
    exact Nat.pos_of_ne_zero fun hz => hne (UInt8.toNat_inj.mp hz).symm

theorem not_observed_twice (m : UInt8) : ¬ (m > m ∨ m < 2 ∧ m > 254) := by
  simp only [UInt8.lt_iff_toNat_lt, UInt8.reduceToNat]
  omega

theorem observe_next {p : S11Peer} {m n : UInt8} {l : List UInt8} (h : p.Saw (m :: l)) (hn : n = m ∨ n = m + 1) :
    (p.observe n).1 = decide (n ≠ m) ∧ (p.observe n).2.Saw (n :: m :: l) := by
  obtain ⟨hcounter, hvalid⟩ := h
  rcases hn with rfl | rfl
  · have hrepeat : (decide (n > p.restartCounter) || decide (n < 2) && decide (p.restartCounter > 254)) = false := by
      rw [hcounter]
      simpa using not_observed_twice n
    rw [observe, hrepeat]
    exact ⟨by simp, hcounter, rfl⟩
  · have hnext : (decide (m + 1 > p.restartCounter) || decide (m + 1 < 2) && decide (p.restartCounter > 254)) = true := by
      rw [hcounter]
      simpa using lt_or_wraps m
    rw [observe, hnext]
    refine ⟨?_, rfl, rfl⟩
    rw [hvalid]
    simp

end S11Peer

namespace S11Stack

variable {s : S11Stack} {a b : Option SockAddr} {n : UInt8} {p : S11Peer}

/-- `s11peer_hasRestarted`. -/
def hasRestarted (s : S11Stack) (rAddr : Option SockAddr) (counter : UInt8) : Bool × S11Stack :=
  match s.peers.get rAddr with
  | none => (false, s)
  | some p =>
    let (restarted, p) := p.observe counter
    (restarted, { s with peers := s.peers.insert rAddr p })

theorem checkPeerRestart_eq (s : S11Stack) (a : Option SockAddr) (n : UInt8) :
    s.checkPeerRestart a n = (s.hasRestarted a n).2 := by
  cases hget : s.peers.get a with
  | none => simp only [checkPeerRestart, hasRestarted, hget]
  | some p =>
    simp only [checkPeerRestart, hasRestarted, hget, S11Peer.observe]
    split <;> rfl

theorem hasRestarted_of_get (h : s.peers.get a = some p) :
    s.hasRestarted a n = ((p.observe n).1, { s with peers := s.peers.insert a (p.observe n).2 }) := by
  simp only [hasRestarted, h]

end S11Stack

/-! ## Everything that happens to the peers -/

/-- What happens to the peers. -/
inductive PeerEvent
  /-- A Create Session Request is sent to the peer. -/
  | session (rAddr : Option SockAddr)
  /-- A user of the peer is freed. -/
  | unref (rAddr : Option SockAddr)
  /-- A message of the peer tells its counter. -/
  | recovery (rAddr : Option SockAddr) (counter : UInt8)

/-- The stack, with the counters that were received and the results of `s11peer_hasRestarted`, the last one first. -/
structure Observing where
  stack : S11Stack
  received : List (Option SockAddr × UInt8 × Bool)

namespace Observing

variable {t u : Observing} {a : Option SockAddr}

def step (t : Observing) : PeerEvent → Outcome Observing
  | .session a => .ok { t with stack := (t.stack.isFirstSession a).2 }
  | .unref a => do
    let s ← t.stack.unrefSession a
    pure { t with stack := s }
  | .recovery a n =>
    let (restarted, s) := t.stack.hasRestarted a n
    .ok ⟨s, (a, n, restarted) :: t.received⟩

def of (t : Observing) (a : Option SockAddr) : List (UInt8 × Bool) :=
  t.received.filterMap fun e => if e.1 = a then some e.2 else none

def counters (t : Observing) (a : Option SockAddr) : List UInt8 := (t.of a).map Prod.fst

/-- The results of `s11peer_hasRestarted` for a peer. -/
def results (t : Observing) (a : Option SockAddr) : List Bool := (t.of a).map Prod.snd

/-- The peer has a session besides the one that ends, so it stays in the table. -/
def Tracked (a : Option SockAddr) (t : Observing) : PeerEvent → Prop
  | .unref b => b = a → ∀ p ∈ t.stack.peers.get a, p.numSessions ≠ 1
  | _ => True

instance (a : Option SockAddr) (t : Observing) : (e : PeerEvent) → Decidable (Tracked a t e)
  | .unref b => inferInstanceAs (Decidable (b = a → ∀ p ∈ t.stack.peers.get a, p.numSessions ≠ 1))
  | .session _ | .recovery _ _ => inferInstanceAs (Decidable True)

/-- The invariant: the peer is in the table, it has the last counter, and the results are right as long as the counters
are in order. -/
def Detects (a : Option SockAddr) (t : Observing) : Prop :=
  ∃ p, t.stack.peers.get a = some p ∧ (Observations.InOrder (t.counters a) →
    p.Saw (t.counters a) ∧ t.results a = Observations.changes (t.counters a))

theorem Detects.of_get (h : t.Detects a) (hr : u.received = t.received)
    (hp : ∀ p, t.stack.peers.get a = some p → ∃ q, u.stack.peers.get a = some q ∧
      q.restartCounter = p.restartCounter ∧ q.restartValid = p.restartValid) : u.Detects a := by
  obtain ⟨p, hget, hsaw⟩ := h
  obtain ⟨q, hq, hcounter, hvalid⟩ := hp p hget
  refine ⟨q, hq, ?_⟩
  have hof : u.of a = t.of a := by rw [of, hr, of]
  rw [counters, results, hof]
  intro hord
  refine ⟨?_, (hsaw hord).2⟩
  have hsaw := (hsaw hord).1
  rw [counters] at hsaw
  cases hl : (t.of a).map Prod.fst with
  | nil =>
    rw [hl] at hsaw
    exact ⟨hcounter.trans hsaw.1, hvalid.trans hsaw.2⟩
  | cons n l =>
    rw [hl] at hsaw
    exact ⟨hcounter.trans hsaw.1, hvalid.trans hsaw.2⟩

theorem detects_session (h : t.Detects a) (b : Option SockAddr) :
    Detects a { t with stack := (t.stack.isFirstSession b).2 } := by
  refine h.of_get rfl fun p hp => ?_
  by_cases hab : a = b
  · subst hab
    refine ⟨{ p with numSessions := p.numSessions + 1 }, ?_, rfl, rfl⟩
    simp only [S11Stack.isFirstSession, hp]
    exact Table.get_insert_self ..
  · refine ⟨p, ?_, rfl, rfl⟩
    unfold S11Stack.isFirstSession
    split
    · exact (Table.get_insert_of_ne _ _ _ _ hab).trans hp
    · exact (Table.get_insert_of_ne _ _ _ _ hab).trans hp

theorem detects_unref (h : t.Detects a) {b : Option SockAddr} (hq : Tracked a t (.unref b)) {s : S11Stack}
    (hs : t.stack.unrefSession b = .ok s) : Detects a { t with stack := s } := by
  refine h.of_get rfl fun p hp => ?_
  by_cases hab : b = a
  · subst hab
    have hne := hq rfl p hp
    simp only [S11Stack.unrefSession, hp, if_neg hne] at hs
    cases hs
    exact ⟨_, Table.get_insert_self .., rfl, rfl⟩
  · refine ⟨p, ?_, rfl, rfl⟩
    unfold S11Stack.unrefSession at hs
    split at hs
    · cases hs
    · cases hs
      split
      · exact (Table.get_remove_of_ne _ _ _ (Ne.symm hab)).trans hp
      · exact (Table.get_insert_of_ne _ _ _ _ (Ne.symm hab)).trans hp

theorem detects_recovery (h : t.Detects a) (b : Option SockAddr) (n : UInt8) :
    Detects a ⟨(t.stack.hasRestarted b n).2, (b, n, (t.stack.hasRestarted b n).1) :: t.received⟩ := by
  by_cases hab : b = a
  · subst hab
    obtain ⟨p, hp, hsaw⟩ := h
    rw [S11Stack.hasRestarted_of_get hp]
    refine ⟨(p.observe n).2, Table.get_insert_self .., ?_⟩
    have hof : of ⟨{ t.stack with peers := t.stack.peers.insert b (p.observe n).2 },
        (b, n, (p.observe n).1) :: t.received⟩ b = (n, (p.observe n).1) :: t.of b := by
      simp [of]
    rw [counters, results, hof, List.map_cons, List.map_cons]
    rw [counters, results] at hsaw
    -- the first counter, or one after others
    cases hl : (t.of b).map Prod.fst with
    | nil =>
      rw [hl] at hsaw
      obtain ⟨hsaw, hresults⟩ := hsaw trivial
      obtain ⟨hfalse, hsaw⟩ := S11Peer.observe_first hsaw n
      intro _
      rw [hresults, hfalse]
      exact ⟨hsaw, rfl⟩
    | cons m l =>
      rw [hl] at hsaw
      rintro ⟨hn, hord⟩
      obtain ⟨hsaw, hresults⟩ := hsaw hord
      obtain ⟨hchange, hsaw⟩ := S11Peer.observe_next hsaw hn
      rw [hresults, hchange]
      exact ⟨hsaw, rfl⟩
  · have hof : of ⟨(t.stack.hasRestarted b n).2, (b, n, (t.stack.hasRestarted b n).1) :: t.received⟩ a = t.of a := by
      simp [of, hab]
    obtain ⟨p, hp, hsaw⟩ := h
    refine ⟨p, ?_, by rw [counters, results, hof]; exact hsaw⟩
    unfold S11Stack.hasRestarted
    split
    · exact hp
    · exact (Table.get_insert_of_ne _ _ _ _ (Ne.symm hab)).trans hp

theorem detects_step {e : PeerEvent} (h : t.Detects a) (hq : Tracked a t e) (hu : t.step e = .ok u) :
    u.Detects a := by
  cases e with
  | session b =>
    cases hu
    exact detects_session h b
  | unref b =>
    obtain ⟨s, hs, hu⟩ := bind_eq_ok.mp hu
    cases hu
    exact detects_unref h hq hs
  | recovery b n =>
    cases hu
    exact detects_recovery h b n

theorem detects_first {s : S11Stack} (h : s.peers.get a = none) : Detects a ⟨(s.isFirstSession a).2, []⟩ := by
  refine ⟨⟨1, 0, false⟩, ?_, fun _ => ⟨⟨rfl, rfl⟩, rfl⟩⟩
  simp only [S11Stack.isFirstSession, h]
  exact Table.get_insert_self ..

/-- While a peer is tracked, and as long as its counters come in order, `s11peer_hasRestarted` tells a restart exactly
where the counter changes. -/
theorem restarts_detected {s : S11Stack} (hnew : s.peers.get a = none) {es : List PeerEvent}
    (h : Run step (Tracked a) ⟨(s.isFirstSession a).2, []⟩ es t) (hord : Observations.InOrder (t.counters a)) :
    t.results a = Observations.changes (t.counters a) := by
  have hdetects : t.Detects a := h.invariant (fun t e u ht hq hu => detects_step ht hq hu) (detects_first hnew)
  obtain ⟨p, -, hsaw⟩ := hdetects
  exact (hsaw hord).2

/-- A peer restarts twice, the first time from 255 to 0, while another peer sends counters of its own. -/
theorem restarts_detected_wrap :
    ∃ t, Run step (Tracked none) ⟨((⟨0, 1, [], [], 0, 0⟩ : S11Stack).isFirstSession none).2, []⟩
        [.recovery none 255, .session (some ⟨1, 2123⟩), .recovery none 255, .recovery (some ⟨1, 2123⟩) 9,
          .recovery none 0, .recovery none 0, .recovery none 1] t ∧
      t.counters none = [1, 0, 0, 255, 255] ∧ t.results none = [true, false, true, false, false] := by
  refine Run.exists_of_exec (fun t => t.counters none = [1, 0, 0, 255, 255]) (by decide +kernel) fun t hrun hcounters => ?_
  have hord : Observations.InOrder (t.counters none) := by
    rw [hcounters]
    exact ⟨.inr rfl, .inl rfl, .inr rfl, .inl rfl, trivial⟩
  refine ⟨hcounters, ?_⟩
  rw [restarts_detected rfl hrun hord, hcounters]
  rfl

end Observing

end AaltoMME
