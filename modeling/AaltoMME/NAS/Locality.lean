import AaltoMME.NAS.Decoding
import AaltoMME.NAS.Walk

/-!
# Decoding from the octets of the message

The decoders step in time with the walk of their format: the position, the octets left and the index
of the next optional are those of the cursor.  A message that fits is therefore decoded from its own
octets, whatever lies behind them in the memory.
-/

namespace AaltoMME.NAS

open Base

variable {msg : GenericNASMsg} {buf buf' : Mem} {size : UInt64} {n k off pos total optionals : Nat} {a b b' : UInt8}
  {kind : OptKind} {kinds : List OptKind} {st : OptState} {c : Cursor}

/-! ## Single elements -/

theorem decLv_congr (hle : pos + ((buf pos).toNat + 1) ≤ total) (hagree : ∀ i, i < total → buf i = buf' i) :
    decLv msg buf off pos = decLv msg buf' off pos := by
  unfold decLv
  rw [← hagree pos (by omega)]
  exact Mem.copy_congr _ _ fun i hi => hagree _ (by omega)

theorem decLvE_congr (hle : pos + (beLength buf pos + 2) ≤ total) (hagree : ∀ i, i < total → buf i = buf' i) :
    decLvE msg buf off pos = decLvE msg buf' off pos := by
  have hlen : beLength buf' pos = beLength buf pos := by
    unfold beLength
    rw [hagree pos (by omega), hagree (pos + 1) (by omega)]
  unfold decLvE
  rw [hlen, ← hagree pos (by omega), ← hagree (pos + 1) (by omega)]
  exact Mem.copy_congr _ _ fun i hi => hagree _ (by omega)

/-! ## Optional elements -/

theorem OptKind.length_eq_none (h : kind.length a b = none) : kind.length a b' = none := by
  cases kind <;> simp only [OptKind.length] at h ⊢ <;> split at h <;> simp_all

/-- Only an element with a length octet takes its length from it. -/
theorem OptKind.length_eq_some (h : kind.length a b = some n) (hb : 2 ≤ n → b = b') :
    kind.length a b' = some n := by
  cases kind with
  | tlv type =>
    simp only [OptKind.length] at h ⊢
    split at h
    · rename_i ha
      cases h
      rw [if_pos ha, hb (Nat.le_add_left _ _)]
    · cases h
  | tvT3 type len => exact h
  | tvT1 type valueMask => exact h

/-- The message after an optional element of `len` octets was stored. -/
def OptKind.store (kind : OptKind) (optionals : Nat) (buf : Mem) (st : OptState) (len : Nat) : GenericNASMsg :=
  match kind with
  | .tvT1 _ valueMask =>
    st.msg.set (optionals + st.optIndex * ieMemberSize) (buf st.pos &&& (0xF0 ||| valueMask))
  | _ => st.msg.copy (buf.shift st.pos) (optionals + st.optIndex * ieMemberSize) len

/-- One optional decoder, whatever the shape of its element. -/
def decOptional (optionals : Nat) (buf : Mem) (kind : OptKind) (st : OptState) : OptState :=
  if st.size = 0 then st
  else
    match kind.length (buf st.pos) (buf (st.pos + 1)) with
    | none => st
    | some len =>
      ⟨kind.store optionals buf st len, st.pos + len, st.size - UInt64.ofNat len, st.optIndex + 1⟩

theorem decOptionals_nil : decOptionals optionals buf [] st = st := rfl

theorem decOptionals_cons :
    decOptionals optionals buf (kind :: kinds) st =
      decOptionals optionals buf kinds (decOptional optionals buf kind st) := by
  have hhead : decOptionals optionals buf [kind] st = decOptional optionals buf kind st := by
    cases kind with
    | tlv type =>
      simp only [decOptionals, List.foldl_cons, List.foldl_nil, decNASOptTlv, decOptional, OptKind.length]
      split_ifs <;> rfl
    | tvT3 type len =>
      simp only [decOptionals, List.foldl_cons, List.foldl_nil, decNASOptTvT3, decOptional, OptKind.length]
      split_ifs <;> rfl
    | tvT1 type valueMask =>
      simp only [decOptionals, List.foldl_cons, List.foldl_nil, decNASOptTvT1, decOptional, OptKind.length]
      split_ifs <;> rfl
  rw [← hhead]
  rfl

theorem decOptionals_of_zero (h : st.size = 0) : decOptionals optionals buf kinds st = st := by
  induction kinds with
  | nil => rfl
  | cons kind kinds ih =>
    rw [decOptionals_cons, decOptional, if_pos h]
    exact ih

theorem OptKind.store_congr (hlen : kind.length (buf st.pos) b = some n) (hpos : st.pos < total)
    (hle : st.pos + n ≤ total) (hagree : ∀ i, i < total → buf i = buf' i) :
    kind.store optionals buf st n = kind.store optionals buf' st n := by
  have hcopy : ∀ i, i < n → buf.shift st.pos i = buf'.shift st.pos i := fun i hi => hagree _ (by omega)
  cases kind with
  | tlv type => exact Mem.copy_congr _ _ hcopy
  | tvT3 type len => exact Mem.copy_congr _ _ hcopy
  | tvT1 type valueMask =>
    simp only [OptKind.store]
    rw [hagree _ hpos]

/-- One optional decoder reads its element only, when all of it is there. -/
theorem decOptional_congr (hagree : ∀ i, i < total → buf i = buf' i) (hpos : st.pos < total)
    (hle : ∀ len ∈ kind.length (buf st.pos) (buf (st.pos + 1)), st.pos + len ≤ total) :
    decOptional optionals buf kind st = decOptional optionals buf' kind st := by
  unfold decOptional
  rw [← hagree _ hpos]
  split
  · rfl
  · cases hlen : kind.length (buf st.pos) (buf (st.pos + 1)) with
    | none => rw [OptKind.length_eq_none hlen]
    | some len =>
      have hend := hle len hlen
      rw [OptKind.length_eq_some hlen fun h2 => hagree _ (by omega)]
      simp only
      rw [OptKind.store_congr hlen hpos hend hagree]

theorem decOptionals_congr (hagree : ∀ i, i < total → buf i = buf' i) (hpos : st.pos + n = total)
    (hsize : st.size.toNat = n) (hk : optionalCount kinds (buf.read st.pos n) = some k) :
    decOptionals optionals buf kinds st = decOptionals optionals buf' kinds st := by
  induction kinds generalizing st n k with
  | nil => rw [decOptionals_nil, decOptionals_nil]
  | cons kind kinds ih =>
    by_cases hleft : st.size = 0
    · rw [decOptionals_of_zero hleft, decOptionals_of_zero hleft]
    · have hn : n ≠ 0 := by
        rintro rfl
        exact hleft (UInt64.toNat_inj.mp hsize)
      rw [optionalCount_read _ _ hn] at hk
      rw [decOptionals_cons, decOptionals_cons]
      cases hlen : kind.length (buf st.pos) (buf (st.pos + 1)) with
      | none =>
        rw [hlen] at hk
        rw [← decOptional_congr hagree (by omega) (by rw [hlen]; rintro _ ⟨⟩)]
        have hstay : decOptional optionals buf kind st = st := by
          rw [decOptional, hlen]
          exact ite_self st
        rw [hstay]
        exact ih hpos hsize hk
      | some len =>
        rw [hlen] at hk
        simp only at hk
        split at hk
        · rename_i hle
          obtain ⟨k', hk', -⟩ := Option.map_eq_some_iff.mp hk
          have hfits : ∀ m ∈ kind.length (buf st.pos) (buf (st.pos + 1)), st.pos + m ≤ total := by
            rw [hlen]
            rintro m ⟨⟩
            omega
          rw [← decOptional_congr hagree (by omega) hfits]
          have htake : decOptional optionals buf kind st =
              ⟨kind.store optionals buf st len, st.pos + len, st.size - UInt64.ofNat len, st.optIndex + 1⟩ := by
            rw [decOptional, if_neg hleft, hlen]
          rw [htake]
          refine ih ?_ ?_ hk'
          · show st.pos + len + (n - len) = total
            omega
          · rw [Cursor.toNat_sub_ofNat (hsize ▸ hle), hsize]
        · cases hk

/-! ## Messages -/

namespace Format

variable {f : Format}

/-- In a message that fits, the mandatory elements end inside the message and the optional ones behind
them are complete. -/
theorem Fits.mandatory (h : f.Fits (buf.read 0 size.toNat)) :
    ∃ m k, ((Cursor.start size).elements f.counted buf f.mandatory).Within f.counted size.toNat m ∧
      optionalCount f.optionals (buf.read ((Cursor.start size).elements f.counted buf f.mandatory).pos m) = some k := by
  obtain ⟨k, hk, -⟩ := h
  obtain ⟨l, hl, hk⟩ := Option.bind_eq_some_iff.mp hk
  have hstart : (Cursor.start size).Within f.counted size.toNat size.toNat := (Cursor.within_start size).uncounted
  obtain ⟨m, hm, rfl⟩ := hstart.elements hl
  exact ⟨m, k, hm, hk⟩

theorem Fits.end_le (h : f.Fits (buf.read 0 size.toNat)) :
    ((Cursor.start size).elements f.counted buf f.mandatory).pos ≤ size.toNat := by
  obtain ⟨m, -, hm, -⟩ := h.mandatory
  exact Nat.le_of_add_right_le (Nat.le_of_eq hm.pos)

theorem Fits.elements_congr (h : f.Fits (buf.read 0 size.toNat)) (hagree : ∀ i, i < size.toNat → buf i = buf' i) :
    (Cursor.start size).elements f.counted buf' f.mandatory = (Cursor.start size).elements f.counted buf f.mandatory := by
  obtain ⟨k, hk, -⟩ := h
  obtain ⟨l, hl, -⟩ := Option.bind_eq_some_iff.mp hk
  have hstart : (Cursor.start size).Within f.counted size.toNat size.toNat := (Cursor.within_start size).uncounted
  exact hstart.elements_congr hl hagree

/-- The optional part of a message that fits is decoded from its octets. -/
theorem Fits.decOptionals_congr (h : f.Fits (buf.read 0 size.toNat)) (hcounted : f.counted = true)
    (hagree : ∀ i, i < size.toNat → buf i = buf' i) :
    decOptionals optionals buf f.optionals
        ⟨msg, ((Cursor.start size).elements f.counted buf f.mandatory).pos,
          ((Cursor.start size).elements f.counted buf f.mandatory).left, 0⟩ =
      decOptionals optionals buf' f.optionals
        ⟨msg, ((Cursor.start size).elements f.counted buf' f.mandatory).pos,
          ((Cursor.start size).elements f.counted buf' f.mandatory).left, 0⟩ := by
  obtain ⟨m, k, hm, hk⟩ := h.mandatory
  rw [h.elements_congr hagree]
  exact NAS.decOptionals_congr hagree hm.pos (hm.left hcounted) hk

end Format

theorem sub_two_sub_ofNat (size : UInt64) (n : Nat) : size - 2 - UInt64.ofNat n = size - UInt64.ofNat (n + 2) := by
  rw [UInt64.ofNat_add]
  grind

theorem ite_decOptionals :
    (if st.size = 0 then st.msg else (decOptionals optionals buf kinds st).msg) = (decOptionals optionals buf kinds st).msg := by
  split
  · rename_i h
    rw [decOptionals_of_zero h]
  · rfl

theorem decAttachRequest_eq :
    decAttachRequest msg buf size =
      (decOptionals attachRequestOptionals buf Format.attachRequest.optionals
        ⟨attachRequestMandatory msg buf, ((Cursor.start size).elements true buf Format.attachRequest.mandatory).pos,
          ((Cursor.start size).elements true buf Format.attachRequest.mandatory).left, 0⟩).msg := by
  have hid : 0 + 1 + ((buf (0 + 1)).toNat + 1) = 2 + (buf 1).toNat := by
    rw [Nat.zero_add]
    omega
  have hcap : 2 + (buf 1).toNat + ((buf (2 + (buf 1).toNat)).toNat + 1) =
      2 + (buf 1).toNat + 1 + (buf (2 + (buf 1).toNat)).toNat := by omega
  have hesm : ∀ p, p + (beLength buf p + 2) = p + 2 + beLength buf p := fun p => by omega
  have hlen : ∀ p, Element.length16 (buf p) (buf (p + 1)) = beLength buf p := fun _ => rfl
  simp only [Cursor.elements, Format.attachRequest, List.foldl_cons, List.foldl_nil, Cursor.pass, Cursor.start, if_true,
    Element.length, hid, hcap, hlen, hesm]
  rw [← ite_decOptionals, ← sub_two_sub_ofNat]
  rfl

theorem decTrackingAreaUpdateRequest_eq :
    decTrackingAreaUpdateRequest msg buf size =
      (decOptionals trackingAreaUpdateRequestOptionals buf Format.trackingAreaUpdateRequest.optionals
        ⟨decLv ((msg.setLow 3 (buf 0 &&& 0x0F)).setHigh 4 ((buf 0 &&& 0xF0) >>> 4)) buf 5 1,
          ((Cursor.start size).elements true buf Format.trackingAreaUpdateRequest.mandatory).pos,
          ((Cursor.start size).elements true buf Format.trackingAreaUpdateRequest.mandatory).left, 0⟩).msg := by
  have hid : 0 + 1 + ((buf (0 + 1)).toNat + 1) = 2 + (buf 1).toNat := by
    rw [Nat.zero_add]
    omega
  simp only [Cursor.elements, Format.trackingAreaUpdateRequest, List.foldl_cons, List.foldl_nil, Cursor.pass, Cursor.start,
    if_true, Element.length, hid]
  rw [← ite_decOptionals]
  rfl

theorem decPDNConnectivityRequest_eq :
    decPDNConnectivityRequest msg buf size =
      (decOptionals pdnConnectivityRequestOptionals buf Format.pdnConnectivityRequest.optionals
        ⟨(msg.setLow 4 (buf 0 &&& 0x0F)).setHigh 5 ((buf 0 &&& 0xF0) >>> 4),
          ((Cursor.start size).elements true buf Format.pdnConnectivityRequest.mandatory).pos,
          ((Cursor.start size).elements true buf Format.pdnConnectivityRequest.mandatory).left, 0⟩).msg := by
  rw [← ite_decOptionals]
  rfl

theorem decAuthenticationFailure_eq :
    decAuthenticationFailure msg buf size =
      (decOptionals 4 buf Format.authenticationFailure.optionals
        ⟨msg.set 3 (buf 0), ((Cursor.start size).elements true buf Format.authenticationFailure.mandatory).pos,
          ((Cursor.start size).elements true buf Format.authenticationFailure.mandatory).left, 0⟩).msg := by
  rw [← ite_decOptionals]
  show _ = if size - 1 = 0 then msg.set 3 (buf 0) else _
  unfold decAuthenticationFailure
  split
  · rfl
  · rename_i hsize
    show _ = (decNASOptTlv 4 buf ⟨msg.set 3 (buf 0), 1, size - 1, 0⟩ 0x30).msg
    unfold decNASOptTlv
    simp only [if_neg hsize, Nat.zero_mul, Nat.add_zero]
    split <;> rfl

/-! ## Messages that fit -/

section Fits

variable (hagree : ∀ i, i < size.toNat → buf i = buf' i)

include hagree

theorem attachRequestMandatory_congr (h : Format.attachRequest.Fits (buf.read 0 size.toNat)) :
    attachRequestMandatory msg buf = attachRequestMandatory msg buf' := by
  have hend := h.end_le
  have hid : 0 + 1 + ((buf (0 + 1)).toNat + 1) = 2 + (buf 1).toNat := by
    rw [Nat.zero_add]
    omega
  have hcap : 2 + (buf 1).toNat + ((buf (2 + (buf 1).toNat)).toNat + 1) =
      2 + (buf 1).toNat + 1 + (buf (2 + (buf 1).toNat)).toNat := by omega
  have hlen : ∀ p, Element.length16 (buf p) (buf (p + 1)) = beLength buf p := fun _ => rfl
  simp only [Cursor.elements, Format.attachRequest, List.foldl_cons, List.foldl_nil, Cursor.pass, Cursor.start,
    Element.length, hid, hcap, hlen] at hend
  have h0 : buf' 0 = buf 0 := (hagree 0 (by omega)).symm
  have h1 : buf' 1 = buf 1 := (hagree 1 (by omega)).symm
  have h2 : buf' (2 + (buf 1).toNat) = buf (2 + (buf 1).toNat) := (hagree _ (by omega)).symm
  simp only [attachRequestMandatory, h0, h1, h2]
  -- The elements one after the other, from the inner message to the outer.
  rw [decLvE_congr hend hagree, decLv_congr (by omega) hagree]
  exact congrArg (fun m => decLvE (decLv m buf' _ _) buf' _ _) (decLv_congr (by omega) hagree)

theorem decAttachRequest_congr (h : Format.attachRequest.Fits (buf.read 0 size.toNat)) :
    decAttachRequest msg buf size = decAttachRequest msg buf' size := by
  rw [decAttachRequest_eq, decAttachRequest_eq, attachRequestMandatory_congr hagree h]
  exact congrArg OptState.msg (h.decOptionals_congr rfl hagree)

theorem decTrackingAreaUpdateRequest_congr (h : Format.trackingAreaUpdateRequest.Fits (buf.read 0 size.toNat)) :
    decTrackingAreaUpdateRequest msg buf size = decTrackingAreaUpdateRequest msg buf' size := by
  have hend : 0 + 1 + ((buf 1).toNat + 1) ≤ size.toNat := h.end_le
  rw [decTrackingAreaUpdateRequest_eq, decTrackingAreaUpdateRequest_eq, hagree 0 (by omega),
    decLv_congr (by omega) hagree]
  exact congrArg OptState.msg (h.decOptionals_congr rfl hagree)

theorem decDetachRequestUEOrig_congr (h : Format.detachRequest.Fits (buf.read 0 size.toNat)) :
    decDetachRequestUEOrig msg buf = decDetachRequestUEOrig msg buf' := by
  have hend : 0 + 1 + ((buf 1).toNat + 1) ≤ size.toNat := h.end_le
  unfold decDetachRequestUEOrig
  rw [hagree 0 (by omega)]
  exact decLv_congr (by omega) hagree

theorem decPDNConnectivityRequest_congr (h : Format.pdnConnectivityRequest.Fits (buf.read 0 size.toNat)) :
    decPDNConnectivityRequest msg buf size = decPDNConnectivityRequest msg buf' size := by
  have hend : 0 + 1 ≤ size.toNat := h.end_le
  rw [decPDNConnectivityRequest_eq, decPDNConnectivityRequest_eq, hagree 0 (by omega)]
  exact congrArg OptState.msg (h.decOptionals_congr rfl hagree)

theorem decAuthenticationFailure_congr (h : Format.authenticationFailure.Fits (buf.read 0 size.toNat)) :
    decAuthenticationFailure msg buf size = decAuthenticationFailure msg buf' size := by
  have hend : 0 + 1 ≤ size.toNat := h.end_le
  rw [decAuthenticationFailure_eq, decAuthenticationFailure_eq, hagree 0 (by omega)]
  exact congrArg OptState.msg (h.decOptionals_congr rfl hagree)

theorem decAttachAccept_congr (h : Format.attachAccept.Fits (buf.read 0 size.toNat)) :
    decAttachAccept msg buf = decAttachAccept msg buf' := by
  have hend := h.end_le
  have hlv : 0 + 1 + 1 + ((buf (0 + 1 + 1)).toNat + 1) = 3 + (buf 2).toNat := by
    show 2 + ((buf 2).toNat + 1) = 3 + (buf 2).toNat
    omega
  have hlen : ∀ p, Element.length16 (buf p) (buf (p + 1)) = beLength buf p := fun _ => rfl
  simp only [Cursor.elements, Format.attachAccept, List.foldl_cons, List.foldl_nil, Cursor.pass, Cursor.start,
    Element.length, hlv, hlen] at hend
  have h2 : buf' 2 = buf 2 := (hagree 2 (by omega)).symm
  simp only [decAttachAccept, h2]
  rw [decLvE_congr hend hagree, hagree 0 (by omega), hagree 1 (by omega), decLv_congr (by omega) hagree]

theorem decEMM_congr (hsize : 1 ≤ size.toNat)
    (h : (Format.ofEMM (buf 0)).Fits ((buf.shift 1).read 0 (size.toNat - 1))) :
    decEMM msg buf size = decEMM msg buf' size := by
  have hone : (size - 1).toNat = size.toNat - 1 := Cursor.toNat_sub_ofNat hsize
  have hrest : ∀ i, i < (size - 1).toNat → buf.shift 1 i = buf'.shift 1 i := fun i hi => hagree _ (by omega)
  unfold decEMM
  rw [← hagree 0 (by omega)]
  rw [← hone, Format.ofEMM] at h
  refine ite_congr rfl (fun ht => ?_) fun ht => ?_
  · rw [if_pos ht] at h
    exact decAttachRequest_congr hrest h
  rw [if_neg ht] at h
  refine ite_congr rfl (fun ht => ?_) fun ht => ?_
  · rw [if_pos ht] at h
    exact decAttachAccept_congr hrest h
  rw [if_neg ht] at h
  refine ite_congr rfl (fun ht => ?_) fun ht => ?_
  · rw [if_pos ht] at h
    have hend : 0 + (beLength (buf.shift 1) 0 + 2) ≤ (size - 1).toNat := h.end_le
    exact decLvE_congr hend hrest
  rw [if_neg ht] at h
  refine ite_congr rfl (fun ht => ?_) fun ht => ?_
  · rw [if_pos ht] at h
    have hend : 0 + 1 ≤ (size - 1).toNat := h.end_le
    rw [decAttachReject, hrest 0 (by omega)]
    rfl
  rw [if_neg ht] at h
  refine ite_congr rfl (fun ht => ?_) fun ht => ?_
  · rw [if_pos ht] at h
    exact decDetachRequestUEOrig_congr hrest h
  rw [if_neg ht] at h
  refine ite_congr rfl (fun ht => ?_) fun ht => ?_
  · rw [if_pos ht] at h
    exact decTrackingAreaUpdateRequest_congr hrest h
  rw [if_neg ht] at h
  refine ite_congr rfl (fun ht => ?_) fun ht => ?_
  · rw [if_pos ht] at h
    have hend : 0 + ((buf.shift 1 0).toNat + 1) ≤ (size - 1).toNat := h.end_le
    exact decLv_congr hend hrest
  rw [if_neg ht] at h
  refine ite_congr rfl (fun ht => ?_) fun ht => ?_
  · rw [if_pos ht] at h
    exact decAuthenticationFailure_congr hrest h
  rw [if_neg ht] at h
  refine ite_congr rfl (fun ht => ?_) fun _ => rfl
  rw [if_pos ht] at h
  have hend : 0 + ((buf.shift 1 0).toNat + 1) ≤ (size - 1).toNat := h.end_le
  exact decLv_congr hend hrest

theorem decESM_congr (hsize : 2 ≤ size.toNat)
    (h : (Format.ofESM (buf 1)).Fits ((buf.shift 2).read 0 (size.toNat - 2))) :
    decESM msg buf size = decESM msg buf' size := by
  have htwo : (size - 2).toNat = size.toNat - 2 := Cursor.toNat_sub_ofNat hsize
  have hrest : ∀ i, i < (size - 2).toNat → buf.shift 2 i = buf'.shift 2 i := fun i hi => hagree _ (by omega)
  unfold decESM
  rw [← hagree 0 (by omega), ← hagree 1 (by omega)]
  refine ite_congr rfl (fun ht => ?_) fun _ => rfl
  rw [← htwo, Format.ofESM, if_pos ht] at h
  exact decPDNConnectivityRequest_congr hrest h

end Fits

end AaltoMME.NAS
