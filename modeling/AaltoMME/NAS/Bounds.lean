import AaltoMME.NAS.Locality

/-!
# Memory bounds of NAS parsing

`dec_NAS`, `nas_authenticateMsg` and `dec_secNAS` take the address and the size of a message.  What
each of them reads is given as a walk over the message, and compared with the condition that the
message holds what its header and its length octets announce.
-/

namespace AaltoMME.NAS

open Base

variable {buf buf' : Mem} {size : UInt64} {h : NASHandler} {direction : NASDirection}

/-- The security header type in the first octet of a message. -/
def headerType (a : UInt8) : SecurityHeaderType := .ofNibble ((a &&& 0xf0) >>> 4)

/-- The two buffers hold the same message of `n` octets. -/
def SameOctets (n : Nat) (buf buf' : Mem) : Prop := ∀ i, i < n → buf i = buf' i

theorem nasGetHeader_eq_some {size : UInt32} (hsize : size ≠ 0) :
    nasGetHeader buf size = some (headerType (buf 0), buf 0 &&& 0x0f) := by
  have hpos : ¬ size < 1 := by
    intro hlt
    have hnat := UInt32.lt_iff_toNat_lt.mp hlt
    exact hsize (UInt32.toNat_inj.mp (Nat.lt_one_iff.mp hnat))
  rw [nasGetHeader, if_neg hpos]
  rfl

theorem one_le_of_toUInt32 (hsize : size.toUInt32 ≠ 0) : 1 ≤ size.toNat := by
  by_contra hlt
  have hzero : size = 0 := UInt64.toNat_inj.mp (by show size.toNat = 0; omega)
  exact hsize (by rw [hzero]; rfl)

/-! ## `dec_NAS` -/

/-- The walk of `dec_EMM`. -/
def decEMMWalk (buf : Mem) (size : UInt64) : Cursor :=
  ((Cursor.start size).pass true 1).call ((Format.ofEMM (buf 0)).walk (buf.shift 1) (.start (size - 1)))

/-- The walk of `dec_ESM`. -/
def decESMWalk (buf : Mem) (size : UInt64) : Cursor :=
  ((Cursor.start size).pass true 2).call ((Format.ofESM (buf 1)).walk (buf.shift 2) (.start (size - 2)))

/-- The walk of `dec_NAS`: a message that is not plain is left alone after its header was read. -/
def decNASWalk (buf : Mem) (size : UInt64) : Cursor :=
  match nasGetHeader buf size.toUInt32 with
  | none => .start size
  | some (s, p) =>
    let c := (Cursor.start size).pass true 1
    if s ≠ .plainNAS then c
    else if p = epsMobilityManagementMessages then c.call (decEMMWalk (buf.shift 1) (size - 1))
    else c.call (decESMWalk (buf.shift 1) (size - 1))

/-- The decoder that `dec_NAS` ends in. -/
def decNASFormat (buf : Mem) : Format :=
  if buf 0 &&& 0x0f = epsMobilityManagementMessages then .ofEMM (buf 1) else .ofESM (buf 2)

/-- `dec_NAS` reads the message only, never lets the octets left go below zero and stores no more
optional elements than the message of the type has places: what it returns is the same for every
memory that holds the message. -/
structure DecNASBounded (buf : Mem) (size : UInt64) : Prop where
  walk : (decNASWalk buf size).Bounded size.toNat
  stored : (decNASWalk buf size).stored ≤ (decNASFormat buf).capacity
  result : ∀ buf', SameOctets size.toNat buf buf' → decNAS buf' size = decNAS buf size

/-- The octets of an EMM message: the message type and what it announces. -/
def EMMFits : List UInt8 → Prop
  | [] => False
  | t :: l => (Format.ofEMM t).Fits l

/-- The octets of an ESM message: the procedure transaction identity, the message type and what it
announces. -/
def ESMFits : List UInt8 → Prop
  | _ :: t :: l => (Format.ofESM t).Fits l
  | _ => False

/-- A message holds what its header announces.  Only plain messages are decoded further. -/
def MessageFits : List UInt8 → Prop
  | [] => True
  | a :: l =>
    headerType a = .plainNAS → if a &&& 0x0f = epsMobilityManagementMessages then EMMFits l else ESMFits l

/-- The message of `size` octets holds what it announces.  The size is cut to 32 bits before it is
compared with zero. -/
def DecNASFits (buf : Mem) (size : UInt64) : Prop :=
  size.toUInt32 = 0 ∨ MessageFits (buf.read 0 size.toNat)

instance : DecidablePred EMMFits
  | [] => inferInstanceAs (Decidable False)
  | t :: l => inferInstanceAs (Decidable ((Format.ofEMM t).Fits l))

instance : DecidablePred ESMFits
  | _ :: t :: l => inferInstanceAs (Decidable ((Format.ofESM t).Fits l))
  | [] => inferInstanceAs (Decidable False)
  | [_] => inferInstanceAs (Decidable False)

instance : DecidablePred MessageFits
  | [] => inferInstanceAs (Decidable True)
  | a :: l => inferInstanceAs (Decidable (headerType a = .plainNAS →
      if a &&& 0x0f = epsMobilityManagementMessages then EMMFits l else ESMFits l))

instance : Decidable (DecNASFits buf size) := inferInstanceAs (Decidable (_ ∨ _))

theorem emmFits_read (n : Nat) :
    EMMFits (buf.read 0 n) ↔ 1 ≤ n ∧ (Format.ofEMM (buf 0)).Fits ((buf.shift 1).read 0 (n - 1)) := by
  cases n with
  | zero => exact ⟨False.elim, fun h => absurd h.1 (by omega)⟩
  | succ n =>
    rw [Mem.read_succ, Mem.shift_read]
    exact ⟨fun h => ⟨Nat.le_add_left _ _, h⟩, fun h => h.2⟩

theorem esmFits_read (n : Nat) :
    ESMFits (buf.read 0 n) ↔ 2 ≤ n ∧ (Format.ofESM (buf 1)).Fits ((buf.shift 2).read 0 (n - 2)) := by
  match n with
  | 0 => exact ⟨False.elim, fun h => absurd h.1 (by omega)⟩
  | 1 => exact ⟨False.elim, fun h => absurd h.1 (by omega)⟩
  | n + 2 =>
    rw [Mem.read_succ, Mem.read_succ, Mem.shift_read]
    exact ⟨fun h => ⟨Nat.le_add_left _ _, h⟩, fun h => h.2⟩

/-- A function that looks at `k` octets and then calls the decoder of a format. -/
theorem walk_call_iff {k : Nat} {f : Format} {c : Cursor}
    (hc : c = ((Cursor.start size).pass true k).call (f.walk (buf.shift k) (.start (size - UInt64.ofNat k)))) :
    c.Bounded size.toNat ∧ c.stored ≤ f.capacity ↔
      k ≤ size.toNat ∧ f.Fits ((buf.shift k).read 0 (size.toNat - k)) := by
  rw [hc, Cursor.bounded_pass_call, Cursor.stored_pass_call, and_assoc]
  refine and_congr_right fun hk => ?_
  rw [← Cursor.toNat_sub_ofNat hk]
  exact Format.walk_bounded_iff (Cursor.within_start _) rfl

theorem decEMMWalk_iff :
    (decEMMWalk buf size).Bounded size.toNat ∧ (decEMMWalk buf size).stored ≤ (Format.ofEMM (buf 0)).capacity ↔
      EMMFits (buf.read 0 size.toNat) := by
  rw [emmFits_read]
  exact walk_call_iff rfl

theorem decESMWalk_iff :
    (decESMWalk buf size).Bounded size.toNat ∧ (decESMWalk buf size).stored ≤ (Format.ofESM (buf 1)).capacity ↔
      ESMFits (buf.read 0 size.toNat) := by
  rw [esmFits_read]
  exact walk_call_iff rfl

theorem messageFits_read {n : Nat} (hn : 1 ≤ n) :
    MessageFits (buf.read 0 n) ↔
      (headerType (buf 0) = .plainNAS →
        if buf 0 &&& 0x0f = epsMobilityManagementMessages then EMMFits ((buf.shift 1).read 0 (n - 1))
        else ESMFits ((buf.shift 1).read 0 (n - 1))) := by
  obtain ⟨n, rfl⟩ := Nat.exists_eq_add_of_le' hn
  rw [Mem.read_succ, Mem.shift_read]
  exact Iff.rfl

/-- `dec_NAS` walks inside the message exactly when the message fits. -/
theorem decNASWalk_iff :
    (decNASWalk buf size).Bounded size.toNat ∧ (decNASWalk buf size).stored ≤ (decNASFormat buf).capacity ↔
      DecNASFits buf size := by
  unfold DecNASFits
  by_cases hsize : size.toUInt32 = 0
  · have hheader : nasGetHeader buf size.toUInt32 = none := by
      rw [hsize]
      rfl
    rw [decNASWalk, hheader]
    exact ⟨fun _ => .inl hsize, fun _ => ⟨(Cursor.within_start size).bounded, Nat.zero_le _⟩⟩
  · have hone := one_le_of_toUInt32 hsize
    have hsub : (size - 1).toNat = size.toNat - 1 := Cursor.toNat_sub_ofNat hone
    rw [decNASWalk, nasGetHeader_eq_some hsize, messageFits_read hone, or_iff_right hsize]
    dsimp only
    by_cases hplain : headerType (buf 0) = .plainNAS
    · rw [if_neg (not_not.mpr hplain), forall_prop_of_true hplain, decNASFormat]
      split
      · rw [Cursor.bounded_pass_call, Cursor.stored_pass_call, and_assoc, and_iff_right hone, ← hsub]
        exact decEMMWalk_iff
      · rw [Cursor.bounded_pass_call, Cursor.stored_pass_call, and_assoc, and_iff_right hone, ← hsub]
        exact decESMWalk_iff
    · rw [if_pos hplain]
      exact ⟨fun _ h => absurd h hplain, fun _ => ⟨((Cursor.within_start size).pass hone).bounded, Nat.zero_le _⟩⟩

theorem decNAS_of_sameOctets (hfits : DecNASFits buf size) (hsame : SameOctets size.toNat buf buf') :
    decNAS buf' size = decNAS buf size := by
  by_cases hsize : size.toUInt32 = 0
  · have hheader : ∀ m : Mem, nasGetHeader m size.toUInt32 = none := fun m => by
      rw [hsize]
      rfl
    rw [decNAS, decNAS, hheader, hheader]
  · have hone := one_le_of_toUInt32 hsize
    have hsub : (size - 1).toNat = size.toNat - 1 := Cursor.toNat_sub_ofNat hone
    have hrest : ∀ i, i < (size - 1).toNat → buf.shift 1 i = buf'.shift 1 i := fun i hi => hsame _ (by omega)
    replace hfits := (messageFits_read hone).mp (hfits.resolve_left hsize)
    rw [decNAS, decNAS, nasGetHeader_eq_some hsize, nasGetHeader_eq_some hsize, ← hsame 0 (by omega)]
    refine ite_congr rfl (fun _ => rfl) fun hplain => ?_
    replace hfits := hfits (not_not.mp hplain)
    rw [← hsub] at hfits
    refine ite_congr rfl (fun hp => ?_) fun hp => ?_
    · rw [if_pos hp, emmFits_read] at hfits
      exact congrArg (Prod.mk true) (decEMM_congr hrest hfits.1 hfits.2).symm
    · rw [if_neg hp, esmFits_read] at hfits
      exact congrArg (Prod.mk true) (decESM_congr hrest hfits.1 hfits.2).symm

theorem decNASBounded_iff : DecNASBounded buf size ↔ DecNASFits buf size :=
  ⟨fun h => decNASWalk_iff.mp ⟨h.walk, h.stored⟩, fun h =>
    ⟨(decNASWalk_iff.mpr h).1, (decNASWalk_iff.mpr h).2, fun _ hsame => decNAS_of_sameOctets h hsame⟩⟩

/-! ## `nas_authenticateMsg` -/

/-- The octets of the message that `eia_cb[i]` reads. -/
def eiaCbReads (i : NASEIA) (mLen : Nat) : Nat := if i = .eia2 then bitOctets mLen else 0

/-- The walk of `nas_authenticateMsg`.  It keeps no counter; the size of the text for the MAC is the
size of the message less 5. -/
def nasAuthenticateMsgWalk (h : NASHandler) (buf : Mem) (size : UInt32) (direction : NASDirection) : Cursor :=
  let c := Cursor.start size.toUInt64
  let header := { c with extent := min 1 size.toNat }
  if !h.isValid then header
  else if (headerType (buf 0)).isProtected then
    if !nasCheckCOUNT (h.nasCount direction) (buf 5) then { c with extent := 6 }
    else
      { c with
        extent := max 6 (5 + eiaCbReads h.i ((size - 5) * 8).toNat)
        wrapped := decide (size.toNat < 5) }
  else if headerType (buf 0) = .serviceRequest then
    if !nasCheckCOUNTshort (h.nasCount direction) (buf 1 &&& 0x1F) then { c with extent := 2 }
    else { c with extent := 4 }
  else header

/-- `nas_authenticateMsg` reads the message only: what it returns, and the handler it leaves, are the
same for every memory that holds the message. -/
structure AuthenticateBounded (P : Prims) (h : NASHandler) (buf : Mem) (size : UInt32) (direction : NASDirection) :
    Prop where
  walk : (nasAuthenticateMsgWalk h buf size direction).Bounded size.toNat
  result : ∀ buf', SameOctets size.toNat buf buf' →
    nasAuthenticateMsg P h buf' size direction = nasAuthenticateMsg P h buf size direction

/-- A valid handler needs the header of six octets of a protected message, and the four octets of a
Service Request, or the two of them with the sequence number when that is outside the window. -/
def AuthenticateFits (h : NASHandler) (buf : Mem) (size : UInt32) (direction : NASDirection) : Prop :=
  h.isValid = true →
    ((headerType (buf 0)).isProtected = true → 6 ≤ size.toNat) ∧
    (headerType (buf 0) = .serviceRequest →
      4 ≤ size.toNat ∨
        2 ≤ size.toNat ∧ nasCheckCOUNTshort (h.nasCount direction) (buf 1 &&& 0x1F) = false)

theorem not_serviceRequest_of_isProtected {s : SecurityHeaderType} (hs : s.isProtected = true) : s ≠ .serviceRequest := by
  rintro rfl
  cases hs

/-- The length in bits of the text for the MAC is cut to 32 bits, so at most the text is read. -/
theorem eiaCbReads_le (i : NASEIA) {size : UInt32} (hsize : 5 ≤ size.toNat) :
    5 + eiaCbReads i ((size - 5) * 8).toNat ≤ size.toNat := by
  have hsub : (size - 5).toNat = size.toNat - 5 :=
    UInt32.toNat_sub_of_le _ _ (UInt32.le_iff_toNat_le.mpr hsize)
  have hmul : ((size - 5) * 8).toNat = (size.toNat - 5) * 8 % 2 ^ 32 := by
    rw [UInt32.toNat_mul, hsub]
    rfl
  unfold eiaCbReads
  split
  · have hbits : (size.toNat - 5) * 8 % 2 ^ 32 % 8 = 0 := by omega
    rw [hmul, bitOctets, if_pos hbits]
    omega
  · exact hsize

theorem authenticateWalk_iff {size : UInt32} (hsize : 1 ≤ size.toNat) :
    (nasAuthenticateMsgWalk h buf size direction).Bounded size.toNat ↔ AuthenticateFits h buf size direction := by
  have hheader : (⟨0, size.toUInt64, min 1 size.toNat, false, 0⟩ : Cursor).Bounded size.toNat :=
    ⟨Nat.min_le_right _ _, rfl⟩
  unfold nasAuthenticateMsgWalk AuthenticateFits
  by_cases hv : h.isValid = true
  · rw [hv, forall_prop_of_true rfl, Bool.not_true, if_neg Bool.false_ne_true]
    by_cases hs : (headerType (buf 0)).isProtected = true
    · rw [if_pos hs, forall_prop_of_true hs, and_iff_left fun h => absurd h (not_serviceRequest_of_isProtected hs)]
      split
      · exact and_iff_left rfl
      · refine ⟨fun hb => Nat.le_trans (Nat.le_max_left _ _) hb.1, fun h6 => ⟨?_, ?_⟩⟩
        · exact Nat.max_le.mpr ⟨h6, eiaCbReads_le _ (by omega)⟩
        · exact decide_eq_false (by omega)
    · rw [if_neg hs, and_iff_right fun h => absurd h hs]
      by_cases hr : headerType (buf 0) = .serviceRequest
      · rw [if_pos hr, forall_prop_of_true hr]
        split
        · rename_i hcheck
          have hcheck : nasCheckCOUNTshort (h.nasCount direction) (buf 1 &&& 0x1F) = false := by simpa using hcheck
          rw [hcheck, and_iff_left rfl]
          exact ⟨fun hb => .inr hb.1, fun h => ⟨show 2 ≤ size.toNat by omega, rfl⟩⟩
        · rename_i hcheck
          have hcheck : nasCheckCOUNTshort (h.nasCount direction) (buf 1 &&& 0x1F) = true := by simpa using hcheck
          rw [hcheck, or_iff_left fun h => Bool.noConfusion h.2]
          exact and_iff_left rfl
      · rw [if_neg hr]
        exact ⟨fun _ h => absurd h hr, fun _ => hheader⟩
  · rw [if_pos (by simpa using hv)]
    exact ⟨fun _ h => absurd h hv, fun _ => hheader⟩

variable {P : Prims}

theorem eiaCb_congr {i : NASEIA} {k count : List UInt8} {bearer d : UInt8} {mLen : Nat}
    (hsame : SameOctets (eiaCbReads i mLen) buf buf') :
    eiaCb P i k count bearer d buf' mLen = eiaCb P i k count bearer d buf mLen := by
  cases i with
  | eia2 =>
    have hcopy : ∀ m : Mem, m.copy buf' 8 (bitOctets mLen) = m.copy buf 8 (bitOctets mLen) := fun m =>
      Mem.copy_congr _ _ fun j hj => (hsame j hj).symm
    simp only [eiaCb, eia2, hcopy]
  | _ => rfl

theorem authenticate_of_sameOctets {size : UInt32} (hsize : 1 ≤ size.toNat) (hfits : AuthenticateFits h buf size direction)
    (hsame : SameOctets size.toNat buf buf') :
    nasAuthenticateMsg P h buf' size direction = nasAuthenticateMsg P h buf size direction := by
  have hne : size ≠ 0 := by
    rintro rfl
    exact absurd hsize (by decide)
  unfold nasAuthenticateMsg
  rw [nasGetHeader_eq_some hne, nasGetHeader_eq_some hne, ← hsame 0 hsize]
  by_cases hv : h.isValid = true
  · obtain ⟨hprotected, hservice⟩ := hfits hv
    refine ite_congr rfl (fun _ => rfl) fun _ => ?_
    dsimp only
    refine ite_congr rfl (fun hs => ?_) fun _ => ite_congr rfl (fun hr => ?_) fun _ => rfl
    · have h6 := hprotected hs
      have hmac : buf'.read 1 4 = buf.read 1 4 := Mem.read_congr fun k hk => (hsame _ (by omega)).symm
      have heia : 5 + eiaCbReads h.i ((size - 5) * 8).toNat ≤ size.toNat := eiaCbReads_le h.i (by omega)
      have htext : SameOctets (eiaCbReads h.i ((size - 5) * 8).toNat) (buf.shift 5) (buf'.shift 5) := fun j hj =>
        hsame _ (by omega)
      unfold authenticateProtected
      dsimp only
      rw [← hsame 5 (by omega), hmac, eiaCb_congr htext]
    · unfold authenticateServiceRequest
      dsimp only
      rcases hservice hr with h4 | ⟨h2, hcheck⟩
      · have hmac : buf'.read 2 2 = buf.read 2 2 := Mem.read_congr fun k hk => (hsame _ (by omega)).symm
        have htext : SameOctets (eiaCbReads h.i (2 * 8)) buf buf' := fun j hj => by
          have hle : eiaCbReads h.i (2 * 8) ≤ 2 := by unfold eiaCbReads; split <;> decide
          exact hsame _ (by omega)
        rw [← hsame 1 (by omega), hmac, eiaCb_congr htext]
      · rw [← hsame 1 (by omega), hcheck]
        rfl
  · have hv : h.isValid = false := by simpa using hv
    rw [hv]
    rfl

theorem authenticateBounded_iff {size : UInt32} (hsize : 1 ≤ size.toNat) :
    AuthenticateBounded P h buf size direction ↔ AuthenticateFits h buf size direction :=
  ⟨fun hb => (authenticateWalk_iff hsize).mp hb.walk, fun hfits =>
    ⟨(authenticateWalk_iff hsize).mpr hfits, fun _ hsame => authenticate_of_sameOctets hsize hfits hsame⟩⟩

/-! ## `dec_secNAS` -/

/-- The message has text behind a header of six octets that `dec_secNAS` hands to `dec_NAS`, as it is
or deciphered. -/
def HasText (h : NASHandler) (s : SecurityHeaderType) : Prop :=
  s = .integrityProtected ∨ (s.isCiphered = true ∨ s = .serviceRequest) ∧ h.isValid = true

instance (s : SecurityHeaderType) : Decidable (HasText h s) := inferInstanceAs (Decidable (_ ∨ _))

/-- The walk of `dec_secNAS`.  Deciphering with EEA0 reads the text and copies it, and the walk of
`dec_NAS` is then over the copy, which holds nothing behind the text; the other algorithms are NULL. -/
def decSecNASWalk (h : NASHandler) (buf : Mem) (size : UInt64) : Cursor :=
  match nasGetHeader buf size.toUInt32 with
  | none => .start size
  | some (s, _) =>
    if HasText h s then
      let c := (Cursor.start size).pass true 6
      let text := decNASWalk (buf.shift 6) (size - 6)
      if s = .integrityProtected then c.call text
      else if h.e = .eea0 then c.call { text with extent := max (size - 6).toNat text.extent }
      else c
    else (Cursor.start size).pass true 1

/-- `dec_secNAS` reads the message only, and its call of `dec_NAS` the text only. -/
structure DecSecNASBounded (h : NASHandler) (buf : Mem) (size : UInt64) : Prop where
  walk : (decSecNASWalk h buf size).Bounded size.toNat
  stored : (decSecNASWalk h buf size).stored ≤ (decNASFormat (buf.shift 6)).capacity
  result : ∀ buf', SameOctets size.toNat buf buf' → decSecNAS h buf' size = decSecNAS h buf size

/-- A message with text has its header of six octets, and the text holds what it announces. -/
def DecSecNASFits (h : NASHandler) (buf : Mem) (size : UInt64) : Prop :=
  size.toUInt32 = 0 ∨
    (HasText h (headerType (buf 0)) →
      6 ≤ size.toNat ∧
        (headerType (buf 0) = .integrityProtected ∨ h.e = .eea0 → DecNASFits (buf.shift 6) (size - 6)))

theorem decSecNASWalk_iff :
    (decSecNASWalk h buf size).Bounded size.toNat ∧
        (decSecNASWalk h buf size).stored ≤ (decNASFormat (buf.shift 6)).capacity ↔
      DecSecNASFits h buf size := by
  unfold DecSecNASFits
  by_cases hsize : size.toUInt32 = 0
  · have hheader : nasGetHeader buf size.toUInt32 = none := by
      rw [hsize]
      rfl
    rw [decSecNASWalk, hheader]
    exact ⟨fun _ => .inl hsize, fun _ => ⟨(Cursor.within_start size).bounded, Nat.zero_le _⟩⟩
  · have hone := one_le_of_toUInt32 hsize
    rw [decSecNASWalk, nasGetHeader_eq_some hsize, or_iff_right hsize]
    dsimp only
    by_cases htext : HasText h (headerType (buf 0))
    · rw [if_pos htext, forall_prop_of_true htext]
      have hsub : 6 ≤ size.toNat → (size - 6).toNat = size.toNat - 6 := Cursor.toNat_sub_ofNat
      by_cases hs : headerType (buf 0) = .integrityProtected
      · rw [if_pos hs, forall_prop_of_true (.inl hs), Cursor.bounded_pass_call, Cursor.stored_pass_call, and_assoc]
        refine and_congr_right fun h6 => ?_
        rw [← hsub h6]
        exact decNASWalk_iff
      · rw [if_neg hs]
        by_cases he : h.e = .eea0
        · rw [if_pos he, forall_prop_of_true (.inr he), Cursor.bounded_pass_call, Cursor.stored_pass_call, and_assoc]
          refine and_congr_right fun h6 => ?_
          rw [← hsub h6, ← decNASWalk_iff]
          refine and_congr_left fun _ => and_congr_left fun _ => ?_
          exact ⟨fun hle => Nat.le_trans (Nat.le_max_right _ _) hle, fun hle => Nat.max_le.mpr ⟨Nat.le_refl _, hle⟩⟩
        · rw [if_neg he]
          refine ⟨fun hb => ⟨?_, fun hor => absurd hor (not_or.mpr ⟨hs, he⟩)⟩, fun h6 => ⟨?_, Nat.zero_le _⟩⟩
          · by_contra hlt
            exact Nat.not_le_of_lt ((Cursor.within_start size).lt_extent_pass (Nat.lt_of_not_le hlt)) hb.1.1
          · exact ((Cursor.within_start size).pass h6.1).bounded
    · rw [if_neg htext]
      exact ⟨fun _ h => absurd h htext, fun _ => ⟨((Cursor.within_start size).pass hone).bounded, Nat.zero_le _⟩⟩

theorem decSecNAS_of_sameOctets (hfits : DecSecNASFits h buf size) (hsame : SameOctets size.toNat buf buf') :
    decSecNAS h buf' size = decSecNAS h buf size := by
  by_cases hsize : size.toUInt32 = 0
  · have hheader : ∀ m : Mem, nasGetHeader m size.toUInt32 = none := fun m => by
      rw [hsize]
      rfl
    rw [decSecNAS, decSecNAS, hheader, hheader]
  · have hone := one_le_of_toUInt32 hsize
    replace hfits := hfits.resolve_left hsize
    have htext : HasText h (headerType (buf 0)) → headerType (buf 0) = .integrityProtected ∨ h.e = .eea0 →
        decNAS (buf'.shift 6) (size - 6) = decNAS (buf.shift 6) (size - 6) := fun ht he => by
      obtain ⟨h6, hdec⟩ := hfits ht
      have hsub : (size - 6).toNat = size.toNat - 6 := Cursor.toNat_sub_ofNat h6
      exact decNAS_of_sameOctets (hdec he) fun i hi => hsame _ (by omega)
    rw [decSecNAS, decSecNAS, nasGetHeader_eq_some hsize, nasGetHeader_eq_some hsize, ← hsame 0 hone]
    refine ite_congr rfl (fun hs => ?_) fun hs => ite_congr rfl (fun _ => rfl) fun hc => ite_congr rfl (fun _ => rfl) fun hv =>
      ite_congr rfl (fun _ => rfl) fun _ => ?_
    · rw [htext (.inl hs) (.inl hs)]
    · cases he : h.e with
      | eea0 =>
        have hhas : HasText h (headerType (buf 0)) := .inr ⟨not_not.mp hc, by simpa using hv⟩
        exact congrArg Except.ok (htext hhas (.inr he))
      | _ => rfl

theorem decSecNASBounded_iff : DecSecNASBounded h buf size ↔ DecSecNASFits h buf size :=
  ⟨fun hb => decSecNASWalk_iff.mp ⟨hb.walk, hb.stored⟩, fun hfits =>
    ⟨(decSecNASWalk_iff.mpr hfits).1, (decSecNASWalk_iff.mpr hfits).2, fun _ hsame => decSecNAS_of_sameOctets hfits hsame⟩⟩

/-! ## Parsing is bounded exactly for messages that fit -/

instance {size : UInt32} : Decidable (AuthenticateFits h buf size direction) :=
  inferInstanceAs (Decidable (_ → _))

instance : Decidable (DecSecNASFits h buf size) := inferInstanceAs (Decidable (_ ∨ _))

variable (P h buf direction) in
/-- Each of the three parsers stays inside a message, and depends on nothing else, exactly when the
message holds what its header and length octets announce. -/
theorem nas_parsing_bounded_iff (size : UInt64) (size' : UInt32) (hsize : 1 ≤ size') :
    (DecNASBounded buf size ↔ DecNASFits buf size) ∧
      (AuthenticateBounded P h buf size' direction ↔ AuthenticateFits h buf size' direction) ∧
        (DecSecNASBounded h buf size ↔ DecSecNASFits h buf size) :=
  ⟨decNASBounded_iff, authenticateBounded_iff (UInt32.le_iff_toNat_le.mp hsize), decSecNASBounded_iff⟩

/-- An Identity Response with an IMSI, a Security Mode Complete in a protected message, and the same
handed to `dec_secNAS`. -/
theorem nas_parsing_bounded_samples :
    (1 : UInt32) ≤ 8 ∧
      DecNASBounded (.ofList [0x07, 0x56, 0x03, 0x09, 0x10, 0x10]) 6 ∧
        AuthenticateBounded Prims.zeroKasme (nasSetSecurity Prims.zeroKasme nasNewHandler .eia2 .eea0 [])
          (.ofList [0x47, 0, 0, 0, 0, 0, 0x07, 0x5E]) 8 .upLink ∧
          DecSecNASBounded (nasSetSecurity Prims.zeroKasme nasNewHandler .eia2 .eea0 [])
            (.ofList [0x47, 0, 0, 0, 0, 0, 0x07, 0x5E]) 8 :=
  ⟨by decide, (nas_parsing_bounded_iff _ nasNewHandler .upLink Prims.zeroKasme 6 8 (by decide)).1.mpr (by decide +kernel),
    (nas_parsing_bounded_iff _ _ _ _ 8 8 (by decide)).2.1.mpr (by decide +kernel),
    (nas_parsing_bounded_iff _ _ .upLink Prims.zeroKasme 8 8 (by decide)).2.2.mpr (by decide +kernel)⟩

/-- An Attach Request with an empty identity, capability and ESM message, and with each of the optional
elements that `dec_AttachRequest` knows. -/
def attachRequestAllOptionals : List UInt8 :=
  [0x07, 0x41, 0x71, 0, 0, 0, 0, 0x19, 0, 0, 0, 0x50, 0, 0x52, 0, 0, 0, 0, 0, 0x5C, 0, 0, 0x31, 0, 0x13, 0, 0, 0, 0, 0,
    0x90, 0x11, 0, 0x20, 0, 0x40, 0, 0xF0, 0x5D, 0, 0xD0, 0xE0, 0xC0, 0x10, 0, 0x6A, 0, 0x5E, 0]

/-- A header without a message type, an Attach Request whose identity is longer than the message, an
Attach Request with 18 optional elements, and protected messages of one octet. -/
theorem nas_parsing_unbounded :
    ¬ DecNASBounded (.ofList [0x07]) 1 ∧
      ¬ DecNASBounded (.ofList [0x07, 0x41, 0x71, 0xFF]) 4 ∧
        (decNASWalk (.ofList attachRequestAllOptionals) 49).stored = 18 ∧
          ¬ DecNASBounded (.ofList attachRequestAllOptionals) 49 ∧
            ¬ AuthenticateBounded Prims.zeroKasme (nasSetSecurity Prims.zeroKasme nasNewHandler .eia2 .eea0 [])
                (.ofList [0x47]) 1 .upLink ∧
              ¬ DecSecNASBounded (nasSetSecurity Prims.zeroKasme nasNewHandler .eia2 .eea0 []) (.ofList [0x47]) 1 := by
  refine ⟨fun hb => ?_, fun hb => ?_, by decide +kernel, fun hb => ?_, fun hb => ?_, fun hb => ?_⟩
  · exact absurd hb.walk (by decide +kernel)
  · exact absurd hb.walk (by decide +kernel)
  · exact absurd hb.stored (by decide +kernel)
  · exact absurd hb.walk (by decide +kernel)
  · exact absurd hb.walk (by decide +kernel)

end AaltoMME.NAS
