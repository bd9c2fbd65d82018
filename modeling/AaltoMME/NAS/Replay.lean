import AaltoMME.Base.Bits
import AaltoMME.NAS.Handler

/-!
# No message is accepted twice

A run of `nas_authenticateMsg` calls on one handler accepts strictly increasing COUNTs in each
direction.  Messages with an 8 bit and with a 5 bit sequence number may be mixed freely: both
reconstruct a COUNT that is at least the stored one when the window test passes, and both store the
COUNT after it.
-/

namespace AaltoMME.NAS

open Base

variable {P : Prims} {h : NASHandler} {direction : NASDirection} {buf : Mem} {size : UInt32}

/-! ## One call -/

/-- The COUNT under which `nas_authenticateMsg` verifies a message. -/
def msgCOUNT (h : NASHandler) (buf : Mem) (size : UInt32) (direction : NASDirection) : UInt32 :=
  match nasGetHeader buf size with
  | some (.serviceRequest, _) => h.rcvCOUNTshort direction (buf 1 &&& 0x1F)
  | _ => h.rcvCOUNT direction (buf 5)

theorem and_0x1F_lt (b : UInt8) : (b &&& 0x1F).toNat < 2 ^ 5 := Nat.and_lt_two_pow _ (by decide)

/-- The window of `nas_checkCOUNT`: the sequence number is one of ten from the low 8 bits of the stored
COUNT on.  The difference is unsigned, so the window does not wrap. -/
theorem nasCheckCOUNT_iff {last : UInt32} {recv : UInt8} :
    nasCheckCOUNT last recv = true ↔
      last.toNat % 2 ^ 8 ≤ recv.toNat ∧ recv.toNat ≤ last.toNat % 2 ^ 8 + 9 := by
  have hr : recv.toNat < 2 ^ 8 := recv.toNat_lt
  have hand : last.toNat &&& 0xFF = last.toNat % 2 ^ 8 := Nat.and_two_pow_sub_one_eq_mod _ 8
  simp only [nasCheckCOUNT, nasCountThreshold, decide_eq_true_eq, UInt32.lt_iff_toNat_lt,
    UInt32.toNat_sub, UInt32.toNat_and, UInt8.toNat_toUInt32, UInt32.reduceToNat, hand]
  omega

theorem nasCheckCOUNTshort_iff {last : UInt32} {recv : UInt8} :
    nasCheckCOUNTshort last recv = true ↔
      last.toNat % 2 ^ 5 ≤ recv.toNat ∧ recv.toNat ≤ last.toNat % 2 ^ 5 + 9 := by
  have hr : recv.toNat < 2 ^ 8 := recv.toNat_lt
  have hand : last.toNat &&& 0x1F = last.toNat % 2 ^ 5 := Nat.and_two_pow_sub_one_eq_mod _ 5
  simp only [nasCheckCOUNTshort, nasCountThreshold, decide_eq_true_eq, UInt32.lt_iff_toNat_lt,
    UInt32.toNat_sub, UInt32.toNat_and, UInt8.toNat_toUInt32, UInt32.reduceToNat, hand]
  omega

theorem toNat_rcvCOUNT (recv : UInt8) : (h.rcvCOUNT direction recv).toNat =
    (h.nasCount direction).toNat / 2 ^ 8 % 2 ^ 16 * 2 ^ 8 + recv.toNat := and_mask_or_eq _ 16 8 _ recv.toNat_lt

theorem toNat_rcvCOUNTshort {recv : UInt8} (hr : recv.toNat < 2 ^ 5) :
    (h.rcvCOUNTshort direction recv).toNat =
      (h.nasCount direction).toNat / 2 ^ 5 % 2 ^ 19 * 2 ^ 5 + recv.toNat := and_mask_or_eq _ 19 5 _ hr

/-- An 8 bit sequence number in the window stands for a COUNT from the stored one on. -/
theorem le_rcvCOUNT {recv : UInt8} (hc : (h.nasCount direction).toNat < 2 ^ 24)
    (hw : nasCheckCOUNT (h.nasCount direction) recv) :
    (h.nasCount direction).toNat ≤ (h.rcvCOUNT direction recv).toNat ∧
      (h.rcvCOUNT direction recv).toNat < 2 ^ 24 := by
  have hr := recv.toNat_lt
  rw [nasCheckCOUNT_iff] at hw
  rw [toNat_rcvCOUNT]
  omega

theorem le_rcvCOUNTshort {recv : UInt8} (hr : recv.toNat < 2 ^ 5)
    (hc : (h.nasCount direction).toNat < 2 ^ 24)
    (hw : nasCheckCOUNTshort (h.nasCount direction) recv) :
    (h.nasCount direction).toNat ≤ (h.rcvCOUNTshort direction recv).toNat ∧
      (h.rcvCOUNTshort direction recv).toNat < 2 ^ 24 := by
  rw [nasCheckCOUNTshort_iff] at hw
  rw [toNat_rcvCOUNTshort hr]
  omega

@[simp] theorem withCount_nasCount_self (c : UInt32) :
    (h.withCount direction c).nasCount direction = c := by
  simp [NASHandler.withCount]

theorem withCount_nasCount_of_ne {d : NASDirection} (c : UInt32) (hd : d ≠ direction) :
    (h.withCount direction c).nasCount d = h.nasCount d := by
  simp [NASHandler.withCount, hd]

/-- What a call that returns has done: either it did not authenticate the message and left the
handler alone, or the handler is valid, the sequence number is in the window, and the COUNT after that
of the message was stored. -/
theorem nasAuthenticateMsg_shape {r : AuthResult}
    (hr : nasAuthenticateMsg P h buf size direction = .ok r) :
    (r.isAuth = false ∧ r.handler = h) ∨
      (r.isAuth = true ∧ r.ret = 1 ∧ h.isValid = true ∧
        r.handler = h.withCount direction (msgCOUNT h buf size direction + 1) ∧
        (msgCOUNT h buf size direction = h.rcvCOUNT direction (buf 5) ∧
            nasCheckCOUNT (h.nasCount direction) (buf 5) = true ∨
          msgCOUNT h buf size direction = h.rcvCOUNTshort direction (buf 1 &&& 0x1F) ∧
            nasCheckCOUNTshort (h.nasCount direction) (buf 1 &&& 0x1F) = true)) := by
  simp only [nasAuthenticateMsg] at hr
  split at hr
  · cases hr; exact .inl ⟨rfl, rfl⟩
  rename_i hv
  split at hr
  · cases hr
  rename_i s p hs
  split at hr
  · -- header types 1 to 4
    have hcount : msgCOUNT h buf size direction = h.rcvCOUNT direction (buf 5) := by
      cases s <;> simp_all [msgCOUNT, SecurityHeaderType.isProtected]
    simp only [authenticateProtected] at hr
    split at hr
    · cases hr; exact .inl ⟨rfl, rfl⟩
    rename_i hw
    obtain ⟨macX, -, hr⟩ := bind_eq_ok.mp hr
    split at hr
    · cases hr
      exact .inr ⟨rfl, rfl, by simpa using hv, by rw [hcount]; rfl, .inl ⟨hcount, by simpa using hw⟩⟩
    · cases hr; exact .inl ⟨rfl, rfl⟩
  split at hr
  · -- Service Request
    rename_i hsr
    have hcount : msgCOUNT h buf size direction =
        h.rcvCOUNTshort direction (buf 1 &&& 0x1F) := by
      simp [msgCOUNT, hs, hsr]
    simp only [authenticateServiceRequest] at hr
    split at hr
    · cases hr; exact .inl ⟨rfl, rfl⟩
    rename_i hw
    obtain ⟨macX, -, hr⟩ := bind_eq_ok.mp hr
    split at hr
    · cases hr
      exact .inr ⟨rfl, rfl, by simpa using hv, by rw [hcount]; rfl, .inr ⟨hcount, by simpa using hw⟩⟩
    · cases hr; exact .inl ⟨rfl, rfl⟩
  · cases hr; exact .inl ⟨rfl, rfl⟩

/-- As long as the stored COUNT has 24 bits, the COUNT of an authenticated message is not below it. -/
theorem nasAuthenticateMsg_cases {r : AuthResult}
    (hc : (h.nasCount direction).toNat < 2 ^ 24)
    (hr : nasAuthenticateMsg P h buf size direction = .ok r) :
    (r.isAuth = false ∧ r.handler = h) ∨
      (r.isAuth = true ∧
        r.handler = h.withCount direction (msgCOUNT h buf size direction + 1) ∧
        (h.nasCount direction).toNat ≤ (msgCOUNT h buf size direction).toNat ∧
        (msgCOUNT h buf size direction).toNat < 2 ^ 24) := by
  obtain hno | ⟨ha, -, -, hh, ⟨hcount, hw⟩ | ⟨hcount, hw⟩⟩ := nasAuthenticateMsg_shape hr
  · exact .inl hno
  · exact .inr ⟨ha, hh, hcount ▸ le_rcvCOUNT hc hw⟩
  · exact .inr ⟨ha, hh, hcount ▸ le_rcvCOUNTshort (and_0x1F_lt _) hc hw⟩

/-! ## Runs of calls -/

/-- The arguments of one call of `nas_authenticateMsg`. -/
structure AuthCall where
  buf : Mem
  size : UInt32
  direction : NASDirection

/-- A handler together with the COUNTs it accepted so far, oldest first. -/
structure AuthLog where
  handler : NASHandler
  accepted : List (NASDirection × UInt32)

/-- The COUNTs accepted in one direction, oldest first. -/
def AuthLog.counts (t : AuthLog) (d : NASDirection) : List UInt32 :=
  (t.accepted.filter (·.1 = d)).map (·.2)

/-- One call on the handler of a log. -/
def authStep (P : Prims) (t : AuthLog) (c : AuthCall) : Outcome AuthLog := do
  let r ← nasAuthenticateMsg P t.handler c.buf c.size c.direction
  .ok ⟨r.handler, if r.isAuth then
      t.accepted ++ [(c.direction, msgCOUNT t.handler c.buf c.size c.direction)]
    else t.accepted⟩

/-- The stored COUNTs are below `2 ^ 24`. -/
def CountsBelow (t : AuthLog) (_ : AuthCall) : Prop :=
  ∀ d, (t.handler.nasCount d).toNat < 2 ^ 24

instance (t : AuthLog) (c : AuthCall) : Decidable (CountsBelow t c) :=
  decidable_of_iff ((t.handler.nasCount .upLink).toNat < 2 ^ 24 ∧
      (t.handler.nasCount .downLink).toNat < 2 ^ 24)
    ⟨fun h d => by cases d with | upLink => exact h.1 | downLink => exact h.2, fun h => ⟨h _, h _⟩⟩

/-- The invariant of a run: in each direction the accepted COUNTs increase, and they are all below
the stored one. -/
structure AuthLog.Ordered (t : AuthLog) : Prop where
  increasing : ∀ d, (t.counts d).Pairwise (· < ·)
  below : ∀ d c, (d, c) ∈ t.accepted → c < t.handler.nasCount d
  nodup : t.accepted.Nodup

theorem AuthLog.mem_counts {t : AuthLog} {d : NASDirection} {c : UInt32} :
    c ∈ t.counts d ↔ (d, c) ∈ t.accepted := by
  simp only [counts, List.mem_map, List.mem_filter, decide_eq_true_eq]
  constructor
  · rintro ⟨⟨d', c'⟩, ⟨hmem, rfl⟩, rfl⟩
    exact hmem
  · intro hmem
    exact ⟨(d, c), ⟨hmem, rfl⟩, rfl⟩

/-- Accepting one more COUNT keeps the invariant when it is not below the stored one. -/
theorem AuthLog.Ordered.accept {t : AuthLog} (ht : t.Ordered) {c : UInt32}
    (hle : (t.handler.nasCount direction).toNat ≤ c.toNat) (hc : c.toNat < 2 ^ 24) :
    AuthLog.Ordered ⟨t.handler.withCount direction (c + 1), t.accepted ++ [(direction, c)]⟩ := by
  have hlt : ∀ c', (direction, c') ∈ t.accepted → c' < c := fun c' hmem =>
    UInt32.lt_iff_toNat_lt.mpr
      (lt_of_lt_of_le (UInt32.lt_iff_toNat_lt.mp (ht.below direction c' hmem)) hle)
  have hsucc : c < c + 1 := by
    rw [UInt32.lt_iff_toNat_lt, UInt32.toNat_add]
    simp
    omega
  refine ⟨fun d => ?_, fun d c' hmem => ?_, ?_⟩
  · by_cases hd : direction = d
    · subst hd
      have hcounts : AuthLog.counts ⟨t.handler.withCount direction (c + 1),
          t.accepted ++ [(direction, c)]⟩ direction = t.counts direction ++ [c] := by
        simp [counts]
      rw [hcounts, List.pairwise_append]
      refine ⟨ht.increasing direction, List.pairwise_singleton _ _, fun a ha b hb => ?_⟩
      rw [List.mem_singleton.mp hb]
      exact hlt a (mem_counts.mp ha)
    · have hcounts : AuthLog.counts ⟨t.handler.withCount direction (c + 1),
          t.accepted ++ [(direction, c)]⟩ d = t.counts d := by
        simp [counts, hd]
      rw [hcounts]
      exact ht.increasing d
  · rcases List.mem_append.mp hmem with hold | hnew
    · by_cases hd : d = direction
      · subst hd
        simpa using UInt32.lt_trans (hlt c' hold) hsucc
      · simpa [withCount_nasCount_of_ne _ hd] using ht.below d c' hold
    · obtain ⟨rfl, rfl⟩ := Prod.mk.injEq .. ▸ List.mem_singleton.mp hnew
      simpa using hsucc
  · refine List.nodup_append.mpr ⟨ht.nodup, List.nodup_singleton _, fun a ha b hb hab => ?_⟩
    rw [hab, List.mem_singleton.mp hb] at ha
    exact absurd (hlt c ha) (UInt32.lt_irrefl c)

theorem authStep_ordered {t u : AuthLog} {c : AuthCall} (ht : t.Ordered)
    (hb : CountsBelow t c) (hu : authStep P t c = .ok u) : u.Ordered := by
  obtain ⟨r, hr, hu⟩ := bind_eq_ok.mp hu
  cases hu
  obtain ⟨hauth, hsame⟩ | ⟨hauth, hnew, hle, hlt⟩ := nasAuthenticateMsg_cases (hb c.direction) hr
  · simpa [hauth, hsame] using ht
  · simpa [hauth, hnew] using ht.accept hle hlt

/-- No NAS replay: after `nas_setSecurity` with EIA2, the COUNTs that any sequence of
`nas_authenticateMsg` calls accepts in one direction strictly increase, as long as the stored ones
stay below `2 ^ 24`; so no COUNT is accepted twice in one direction. -/
theorem accepted_counts_increasing {kasme : List UInt8} {e : NASEEA} {calls : List AuthCall}
    {t : AuthLog}
    (hrun : Run (authStep P) CountsBelow ⟨nasSetSecurity P h .eia2 e kasme, []⟩ calls t) :
    (∀ d, (t.counts d).Pairwise (· < ·)) ∧ t.accepted.Nodup := by
  have hstart : AuthLog.Ordered ⟨nasSetSecurity P h .eia2 e kasme, []⟩ :=
    ⟨fun d => by simp [AuthLog.counts], by simp, List.nodup_nil⟩
  have ht := hrun.invariant (fun t c u ht hb hu => authStep_ordered ht hb hu) hstart
  exact ⟨ht.increasing, ht.nodup⟩

/-- A message with the sequence number 0, a Service Request with the sequence number 1, then the
first message again: the two COUNTs are accepted, in order, and the repetition is not. -/
theorem accepted_counts_increasing_replayed :
    ∃ t, Run (authStep Prims.zeroKasme) CountsBelow
        ⟨nasSetSecurity Prims.zeroKasme nasNewHandler .eia2 .eea0 (List.replicate 32 0), []⟩
        [⟨Mem.ofList [0x17, 0xf6, 0xd4, 0x68, 0xc5, 0x00, 0x07, 0x43, 0x00, 0x00], 10, .upLink⟩,
          ⟨Mem.ofList [0xc7, 0x01, 0x86, 0x88], 4, .upLink⟩,
          ⟨Mem.ofList [0x17, 0xf6, 0xd4, 0x68, 0xc5, 0x00, 0x07, 0x43, 0x00, 0x00], 10, .upLink⟩] t ∧
      t.accepted = [(.upLink, 0), (.upLink, 1)] ∧
      (∀ d, (t.counts d).Pairwise (· < ·)) ∧ t.accepted.Nodup := by
  refine Run.exists_of_exec (·.accepted = [(.upLink, 0), (.upLink, 1)]) (by decide +kernel) fun t hrun hacc => ?_
  exact ⟨hacc, accepted_counts_increasing hrun⟩

end AaltoMME.NAS
