import AaltoMME.Base.Cursor
import AaltoMME.NAS.Messages

/-!
# How far the NAS decoders read

Every decoder of a message walks over a list of mandatory elements and then tries a list of optional
elements in order.  The table of formats below says which, and whether the decoder subtracts what it
passed from the octets left.  No decoder compares a length octet with the octets left: the walk of a
message stays inside it exactly when the message holds every element it announces.
-/

namespace AaltoMME.NAS

open Base

/-! ## Optional elements -/

/-- The length of an optional element whose first two octets are `a` and `b`, and `none` when the
first octet announces another element. -/
def OptKind.length (a b : UInt8) : OptKind → Option Nat
  | .tlv type => if a = type then some (b.toNat + 2) else none
  | .tvT3 type len => if a = type then some len else none
  | .tvT1 type _ => if a &&& 0xF0 = type <<< (4 : UInt8) then some 1 else none

/-- The optional elements of the given kinds at the front of a list of octets: how many there are, or
`none` when the last of them is cut off. -/
def optionalCount : List OptKind → List UInt8 → Option Nat
  | [], _ => some 0
  | _ :: _, [] => some 0
  | kind :: kinds, a :: l =>
    match kind.length a (l.headD 0) with
    | none => optionalCount kinds (a :: l)
    | some n =>
      if n ≤ l.length + 1 then (optionalCount kinds ((a :: l).drop n)).map (· + 1) else none

section Optionals

variable {buf buf' : Mem} {pos n k total optionals : Nat} {c : Cursor} {st : OptState}

@[simp] theorem optionalCount_nil (kinds : List OptKind) : optionalCount kinds [] = some 0 := by
  cases kinds <;> rfl

/-- The count on a range of the memory goes by the lengths that the memory gives: when the octet
behind the type octet is no longer in the range, the element does not fit whatever it holds. -/
theorem optionalCount_read (kind : OptKind) (kinds : List OptKind) (hn : n ≠ 0) :
    optionalCount (kind :: kinds) (buf.read pos n) =
      match kind.length (buf pos) (buf (pos + 1)) with
      | none => optionalCount kinds (buf.read pos n)
      | some len =>
        if len ≤ n then (optionalCount kinds (buf.read (pos + len) (n - len))).map (· + 1) else none := by
  obtain ⟨m, rfl⟩ := Nat.exists_eq_succ_of_ne_zero hn
  have hdrop : ∀ len, (buf pos :: buf.read (pos + 1) m).drop len = buf.read (pos + len) (m + 1 - len) := fun len => by
    rw [← Mem.read_succ, Mem.drop_read]
  rw [Mem.read_succ]
  simp only [optionalCount, hdrop, Mem.length_read]
  cases m with
  | zero =>
    -- A single octet is left, so a length octet would be behind the end.
    cases kind with
    | tlv type =>
      by_cases ha : buf pos = type
      · simp only [OptKind.length, if_pos ha]
        rw [if_neg (by omega), if_neg (by omega)]
      · simp only [OptKind.length, if_neg ha]
    | tvT3 type len => rfl
    | tvT1 type valueMask => rfl
  | succ m =>
    rw [Mem.read_succ]
    rfl

/-- The walk of `dec_NASOpt_tlv`, `dec_NASOpt_tv_t3` and `dec_NASOpt_tv_t1` over a list of optional
elements. -/
def walkOptionals (buf : Mem) (kinds : List OptKind) (c : Cursor) : Cursor :=
  kinds.foldl (fun c kind => c.optional (kind.length (buf c.pos) (buf (c.pos + 1)))) c

theorem extent_le_walkOptionals (kinds : List OptKind) : c.extent ≤ (walkOptionals buf kinds c).extent := by
  induction kinds generalizing c with
  | nil => exact Nat.le_refl _
  | cons kind kinds ih => exact Nat.le_trans (Cursor.extent_le_optional _) ih

theorem walkOptionals_of_zero (h : c.left = 0) (kinds : List OptKind) : walkOptionals buf kinds c = c := by
  unfold walkOptionals
  induction kinds with
  | nil => rfl
  | cons kind kinds ih =>
    rw [List.foldl_cons, Cursor.optional_of_zero h]
    exact ih

/-- Elements that are all there are walked over inside the message, and each is stored. -/
theorem walkOptionals_of_some (kinds : List OptKind) (h : c.Within true total n)
    (hk : optionalCount kinds (buf.read c.pos n) = some k) :
    (walkOptionals buf kinds c).Bounded total ∧ (walkOptionals buf kinds c).stored = c.stored + k := by
  induction kinds generalizing c n k with
  | nil =>
    cases hk
    exact ⟨h.bounded, rfl⟩
  | cons kind kinds ih =>
    by_cases hleft : c.left = 0
    · have hn : n = 0 := by rw [← h.left rfl, hleft]; rfl
      rw [walkOptionals_of_zero hleft]
      rw [hn, Mem.read_zero] at hk
      cases hk
      exact ⟨h.bounded, rfl⟩
    · have hn : n ≠ 0 := by
        rintro rfl
        exact hleft (UInt64.toNat_inj.mp (h.left rfl))
      rw [optionalCount_read _ _ hn] at hk
      simp only [walkOptionals, List.foldl_cons, Cursor.optional, if_neg hleft]
      cases hlen : kind.length (buf c.pos) (buf (c.pos + 1)) with
      | none =>
        rw [hlen] at hk
        refine ih (c := { c with extent := max c.extent (c.pos + 1) }) ⟨h.pos, h.left, ?_, h.bounded.2⟩ hk
        have hpos := h.pos
        exact Nat.max_le.mpr ⟨h.bounded.1, by omega⟩
      | some len =>
        rw [hlen] at hk
        simp only at hk
        split at hk
        · rename_i hle
          obtain ⟨k', hk', rfl⟩ := Option.map_eq_some_iff.mp hk
          have hpass := h.pass hle
          obtain ⟨hbounded, hstored⟩ := ih (c := { c.pass true len with stored := c.stored + 1 })
            ⟨hpass.pos, hpass.left, hpass.bounded⟩ hk'
          refine ⟨hbounded, hstored.trans ?_⟩
          show c.stored + 1 + k' = c.stored + (k' + 1)
          omega
        · cases hk

theorem lt_extent_walkOptionals (kinds : List OptKind) (h : c.Within true total n)
    (hk : optionalCount kinds (buf.read c.pos n) = none) : total < (walkOptionals buf kinds c).extent := by
  induction kinds generalizing c n with
  | nil => cases hk
  | cons kind kinds ih =>
    have hn : n ≠ 0 := by
      rintro rfl
      cases hk
    have hleft : c.left ≠ 0 := by
      intro hleft
      exact hn (by rw [← h.left rfl, hleft]; rfl)
    rw [optionalCount_read _ _ hn] at hk
    simp only [walkOptionals, List.foldl_cons, Cursor.optional, if_neg hleft]
    cases hlen : kind.length (buf c.pos) (buf (c.pos + 1)) with
    | none =>
      rw [hlen] at hk
      refine ih ⟨h.pos, h.left, ?_, h.bounded.2⟩ hk
      have hpos := h.pos
      exact Nat.max_le.mpr ⟨h.bounded.1, by omega⟩
    | some len =>
      rw [hlen] at hk
      simp only at hk
      split at hk
      · rename_i hle
        have hpass := h.pass hle
        exact ih
          ⟨hpass.pos, hpass.left, hpass.bounded⟩ (Option.map_eq_none_iff.mp hk)
      · rename_i hle
        exact Nat.lt_of_lt_of_le (h.lt_extent_pass (Nat.lt_of_not_le hle))
          (extent_le_walkOptionals (c := { c.pass true len with stored := c.stored + 1 }) kinds)

end Optionals

/-! ## Formats -/

/-- What a decoder reads: its mandatory elements, whether it subtracts them from the octets left, the
optional elements it tries, and how many the array `optionals` of the message holds (0 when the
decoder stores none).  Optional elements are only tried by decoders that keep the octets left. -/
structure Format where
  mandatory : List Element
  counted : Bool
  optionals : List OptKind
  capacity : Nat
  counted_or : counted = true ∨ optionals = []

namespace Format

/-- The decoders of these message types have no body. -/
def none : Format := ⟨[], true, [], 0, .inl rfl⟩

/-- `dec_AttachRequest`. -/
def attachRequest : Format where
  mandatory := [.v, .lv, .lv, .lvE]
  counted := true
  optionals :=
    [.tvT3 0x19 4, .tlv 0x50, .tvT3 0x52 6, .tvT3 0x5C 3, .tlv 0x31, .tvT3 0x13 6, .tvT1 0x9 0x1, .tlv 0x11,
      .tlv 0x20, .tlv 0x40, .tvT1 0xF 0x1, .tlv 0x5D, .tvT1 0xD 0x1, .tvT1 0xE 0x1, .tvT1 0xC 0x1, .tlv 0x10,
      .tlv 0x6A, .tlv 0x5E]
  capacity := 17
  counted_or := .inl rfl

/-- `dec_TrackingAreaUpdateRequest`. -/
def trackingAreaUpdateRequest : Format where
  mandatory := [.v, .lv]
  counted := true
  optionals :=
    [.tvT1 0xB 0xF, .tvT1 0x8 0x7, .tvT3 0x19 4, .tlv 0x50, .tvT3 0x55 5, .tlv 0x58, .tvT3 0x52 6, .tvT3 0x5C 3,
      .tvT1 0xA 0x1, .tlv 0x57, .tlv 0x31, .tvT3 0x13 6, .tvT1 0x9 0x1, .tlv 0x11, .tlv 0x20, .tlv 0x40,
      .tvT1 0xF 0x1, .tlv 0x5D, .tvT1 0xE 0x1, .tvT1 0xD 0x1, .tvT1 0xC 0x1, .tlv 0x10, .tlv 0x6A, .tlv 0x5E]
  capacity := 22
  counted_or := .inl rfl

/-- `dec_PDNConnectivityRequest`. -/
def pdnConnectivityRequest : Format where
  mandatory := [.v]
  counted := true
  optionals := [.tvT1 0xD 0x1, .tlv 0x28, .tlv 0x27, .tvT1 0xC 0x1]
  capacity := 4
  counted_or := .inl rfl

/-- `dec_AuthenticationFailure`; its last read of `opT` is inside the element it has just copied. -/
def authenticationFailure : Format where
  mandatory := [.v]
  counted := true
  optionals := [.tlv 0x30]
  capacity := 1
  counted_or := .inl rfl

/-- `dec_DetachRequestUEOrig`. -/
def detachRequest : Format := ⟨[.v, .lv], true, [], 0, .inl rfl⟩

/-- `dec_AttachAccept`. -/
def attachAccept : Format := ⟨[.v, .v, .lv, .lvE], false, [], 0, .inr rfl⟩

/-- `dec_AttachComplete`. -/
def attachComplete : Format := ⟨[.lvE], false, [], 0, .inr rfl⟩

/-- `dec_AttachReject`. -/
def attachReject : Format := ⟨[.v], false, [], 0, .inr rfl⟩

/-- `dec_AuthenticationResponse`. -/
def authenticationResponse : Format := ⟨[.lv], false, [], 0, .inr rfl⟩

/-- `dec_IdentityResponse`. -/
def identityResponse : Format := ⟨[.lv], false, [], 0, .inr rfl⟩

/-- The decoder that `dec_EMM` calls. -/
def ofEMM (messageType : UInt8) : Format :=
  if messageType = NAS.attachRequest then attachRequest
  else if messageType = NAS.attachAccept then attachAccept
  else if messageType = NAS.attachComplete then attachComplete
  else if messageType = NAS.attachReject then attachReject
  else if messageType = NAS.detachRequest then detachRequest
  else if messageType = NAS.trackingAreaUpdateRequest then trackingAreaUpdateRequest
  else if messageType = NAS.authenticationResponse then authenticationResponse
  else if messageType = NAS.authenticationFailure then authenticationFailure
  else if messageType = NAS.identityResponse then identityResponse
  else none

/-- The decoder that `dec_ESM` calls. -/
def ofESM (messageType : UInt8) : Format :=
  if messageType = NAS.pdnConnectivityRequest then pdnConnectivityRequest else none

variable (f : Format)

/-- The walk of the decoder over the buffer behind the message type. -/
def walk (buf : Mem) (c : Cursor) : Cursor :=
  walkOptionals buf f.optionals (c.elements f.counted buf f.mandatory)

/-- The number of optional elements in the octets behind the message type, or `none` when an element
is cut off. -/
def count (l : List UInt8) : Option Nat :=
  f.mandatory.foldlM (fun l e => e.rest l) l >>= optionalCount f.optionals

/-- The octets behind the message type hold every element they announce, and not more optional
elements than the array has places. -/
def Fits (l : List UInt8) : Prop := ∃ k ∈ f.count l, k ≤ f.capacity

instance (l : List UInt8) : Decidable (f.Fits l) :=
  inferInstanceAs (Decidable (∃ k ∈ f.count l, k ≤ f.capacity))

variable {f} {buf : Mem} {c : Cursor} {total n : Nat}

/-- The walk stays inside the message and the array exactly when the message fits. -/
theorem walk_bounded_iff (h : c.Within true total n) (hstored : c.stored = 0) :
    (f.walk buf c).Bounded total ∧ (f.walk buf c).stored ≤ f.capacity ↔ f.Fits (buf.read c.pos n) := by
  have hwithin : c.Within f.counted total n := h.uncounted
  unfold Fits count walk
  cases hrest : f.mandatory.foldlM (fun l e => e.rest l) (buf.read c.pos n) with
  | none =>
    refine ⟨fun hb => ?_, fun ⟨k, hk, _⟩ => by cases hk⟩
    have hlt := hwithin.lt_extent_elements hrest
    have hle := @extent_le_walkOptionals buf (c.elements f.counted buf f.mandatory) f.optionals
    exact absurd (Nat.le_trans hle hb.1.1) (Nat.not_le_of_lt hlt)
  | some l =>
    obtain ⟨m, hm, rfl⟩ := hwithin.elements hrest
    rcases f.counted_or with hcounted | hnil
    · rw [hcounted] at hm ⊢
      show _ ↔ ∃ k ∈ optionalCount f.optionals (buf.read (c.elements true buf f.mandatory).pos m), k ≤ f.capacity
      cases hk : optionalCount f.optionals (buf.read (c.elements true buf f.mandatory).pos m) with
      | none =>
        refine ⟨fun hb => ?_, fun ⟨k, hk, _⟩ => by cases hk⟩
        exact absurd hb.1.1 (Nat.not_le_of_lt (lt_extent_walkOptionals _ hm hk))
      | some k =>
        obtain ⟨hbounded, hcount⟩ := walkOptionals_of_some _ hm hk
        rw [hcount, Cursor.stored_elements, hstored, Nat.zero_add]
        exact ⟨fun hb => ⟨k, rfl, hb.2⟩, fun ⟨k', hk', hle⟩ => ⟨hbounded, Option.some.inj hk' ▸ hle⟩⟩
    · rw [hnil]
      refine ⟨fun hb => ⟨0, rfl, Nat.zero_le _⟩, fun _ => ⟨hm.bounded, ?_⟩⟩
      show (c.elements f.counted buf f.mandatory).stored ≤ f.capacity
      rw [Cursor.stored_elements, hstored]
      exact Nat.zero_le _

end Format

end AaltoMME.NAS
