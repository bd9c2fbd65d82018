import AaltoMME.NAS.Locality

/-!
# The optional elements of an Attach Request

`dec_AttachRequest` tries its optional elements in a fixed order, each by its identifier: a whole octet, or for an
element of one octet its high half.  The elements that are there are stored one after the other in an array that was
cleared, and `nas_NASOpt_lookup` walks over the array up to the first empty place.
-/

namespace AaltoMME.NAS

open Base

/-! ## Encoded elements -/

namespace OptKind

def type : OptKind → UInt8
  | .tlv type | .tvT3 type _ | .tvT1 type _ => type

/-- The values that an element of this kind can have. -/
def Carries : OptKind → List UInt8 → Prop
  | .tlv _, v => v.length ≤ 255
  | .tvT3 _ len, v => v.length + 1 = len
  | .tvT1 _ _, v => ∃ b : Fin 16, v = [UInt8.ofNat b]

/-- The first octet of an element; an element of one octet has its value in the low half. -/
def lead : OptKind → UInt8 → UInt8
  | .tvT1 type _, b => type <<< (4 : UInt8) ||| b
  | .tlv type, _ | .tvT3 type _, _ => type

/-- The octets after the first one. -/
def tail : OptKind → List UInt8 → List UInt8
  | .tlv _, v => UInt8.ofNat v.length :: v
  | .tvT3 _ _, v => v
  | .tvT1 _ _, _ => []

def encode (kind : OptKind) (v : List UInt8) : List UInt8 := kind.lead (v.headD 0) :: kind.tail v

/-- An element in the array of optionals: of an element of one octet, the bits of the mask are kept. -/
def stored : OptKind → List UInt8 → List UInt8
  | .tvT1 type valueMask, v => [OptKind.lead (.tvT1 type valueMask) (v.headD 0) &&& (0xF0 ||| valueMask)]
  | .tlv type, v => encode (.tlv type) v
  | .tvT3 type len, v => encode (.tvT3 type len) v

def mark : OptKind → UInt8 → UInt8
  | .tvT1 type valueMask, b => OptKind.lead (.tvT1 type valueMask) b &&& (0xF0 ||| valueMask)
  | kind, b => kind.lead b

variable {kind : OptKind} {v : List UInt8}

theorem stored_eq (kind : OptKind) (v : List UInt8) : kind.stored v = kind.mark (v.headD 0) :: kind.tail v := by
  cases kind <;> rfl

/-- Of a value, sixteen cases make a difference to the first octet. -/
theorem Carries.lead (h : kind.Carries v) : ∃ b : Fin 16,
    kind.lead (v.headD 0) = kind.lead (UInt8.ofNat b) ∧ kind.mark (v.headD 0) = kind.mark (UInt8.ofNat b) := by
  cases kind with
  | tlv type => exact ⟨0, rfl, rfl⟩
  | tvT3 type len => exact ⟨0, rfl, rfl⟩
  | tvT1 type valueMask =>
    obtain ⟨b, rfl⟩ := h
    exact ⟨b, rfl, rfl⟩

end OptKind

/-- A list of elements that can be told apart, and that fit into the array. -/
structure Separable (kinds : List OptKind) : Prop where
  later : kinds.Pairwise fun k k' => ∀ b : Fin 16, (k.length (k'.lead (UInt8.ofNat b)) 0).isNone
  self : ∀ k ∈ kinds, ∀ b : Fin 16, (k.length (k.lead (UInt8.ofNat b)) 0).isSome
  fits : ∀ k ∈ kinds, ∀ n ∈ k.length (k.lead 0) 255, n ≤ ieMemberSize

/-- An element that is there. -/
abbrev NASOpt : Type := OptKind × List UInt8

/-- The octets of the elements that are there. -/
def optOctets (opts : List NASOpt) : List UInt8 := opts.flatMap fun o => o.1.encode o.2

variable {optionals n : Nat} {buf : Mem} {st st' : OptState} {kind : OptKind} {kinds : List OptKind} {v : List UInt8}
  {opts : List NASOpt} {msg : GenericNASMsg} {iei : UInt8}

theorem Separable.tail (h : Separable (kind :: kinds)) : Separable kinds :=
  ⟨(List.pairwise_cons.mp h.later).2, fun k hk => h.self k (List.mem_cons_of_mem _ hk), fun k hk =>
    h.fits k (List.mem_cons_of_mem _ hk)⟩

/-- The decoder of an element knows its first octet, and takes all of it. -/
theorem Separable.length_eq (h : Separable (kind :: kinds)) (hv : kind.Carries v) (b : UInt8)
    (hb : ∀ l, kind.tail v = l → ∀ a ∈ l.head?, a = b) :
    kind.length (kind.lead (v.headD 0)) b = some (kind.encode v).length := by
  cases kind with
  | tlv type =>
    have hlen := hb _ rfl _ rfl
    have hle : v.length ≤ 255 := hv
    have htoNat : (UInt8.ofNat v.length).toNat = v.length := by
      exact Nat.mod_eq_of_lt (by omega)
    rw [OptKind.length, if_pos (by rfl), ← hlen, htoNat]
    rfl
  | tvT3 type len =>
    have hlen := hv
    rw [OptKind.length, if_pos (by rfl), ← hlen]
    rfl
  | tvT1 type valueMask =>
    obtain ⟨c, hc, -⟩ := hv.lead
    have hsome := h.self _ List.mem_cons_self c
    rw [hc]
    rw [OptKind.length] at hsome ⊢
    split at hsome
    · rw [if_pos ‹_›]
      rfl
    · cases hsome

theorem Separable.length_le (h : Separable (kind :: kinds)) (hv : kind.Carries v) :
    (kind.encode v).length ≤ ieMemberSize := by
  cases kind with
  | tlv type =>
    have hle : v.length ≤ 255 := hv
    simp only [OptKind.encode, OptKind.tail, List.length_cons, ieMemberSize]
    omega
  | tvT3 type len =>
    have hlen := hv
    refine h.fits _ List.mem_cons_self _ ?_
    rw [OptKind.length, if_pos (by rfl), ← hlen]
    rfl
  | tvT1 type valueMask =>
    simp only [OptKind.encode, OptKind.tail, List.length_cons, List.length_nil, ieMemberSize]
    omega

/-! ## Decoding -/

/-- The elements were stored, each in the next place, and nothing else changed. -/
structure Stores (optionals : Nat) (st : OptState) (opts : List NASOpt) (st' : OptState) : Prop where
  pos : st'.pos = st.pos + (optOctets opts).length
  size : st'.size = 0
  optIndex : st'.optIndex = st.optIndex + opts.length
  entry : ∀ j o, opts[j]? = some o →
    st'.msg.read (optionals + (st.optIndex + j) * ieMemberSize) (o.1.stored o.2).length = o.1.stored o.2
  before : ∀ p, p < optionals + st.optIndex * ieMemberSize → st'.msg p = st.msg p
  behind : ∀ p, optionals + (st.optIndex + opts.length) * ieMemberSize ≤ p → st'.msg p = st.msg p

theorem store_of_ne {len p : Nat} (hlen : 1 ≤ len)
    (hp : p < optionals + st.optIndex * ieMemberSize ∨ optionals + st.optIndex * ieMemberSize + len ≤ p) :
    kind.store optionals buf st len p = st.msg p := by
  have hcopy : (st.msg.copy (buf.shift st.pos) (optionals + st.optIndex * ieMemberSize) len) p = st.msg p := by
    rcases hp with hp | hp
    · exact Mem.copy_of_lt _ _ _ _ _ hp
    · exact Mem.copy_of_le _ _ _ _ _ hp
  cases kind with
  | tlv type => exact hcopy
  | tvT3 type n => exact hcopy
  | tvT1 type valueMask =>
    refine Mem.set_of_ne _ _ _ _ ?_
    omega

theorem store_read (hbuf : buf.read st.pos (kind.encode v).length = kind.encode v) :
    (kind.store optionals buf st (kind.encode v).length).read (optionals + st.optIndex * ieMemberSize)
      (kind.stored v).length = kind.stored v := by
  have hcopy : (st.msg.copy (buf.shift st.pos) (optionals + st.optIndex * ieMemberSize) (kind.encode v).length).read
      (optionals + st.optIndex * ieMemberSize) (kind.encode v).length = kind.encode v := by
    refine Eq.trans (Mem.read_congr fun k hk => ?_) hbuf
    rw [Mem.copy_of_mem _ _ _ _ _ (by omega) (by omega), Nat.add_sub_cancel_left]
    rfl
  cases kind with
  | tlv type => exact hcopy
  | tvT3 type n => exact hcopy
  | tvT1 type valueMask =>
    have hfirst : buf st.pos = OptKind.lead (.tvT1 type valueMask) (v.headD 0) := (List.cons.inj hbuf).1
    show [(st.msg.set _ (buf st.pos &&& _)) _] = [_]
    rw [Nat.add_zero, Mem.set_self, hfirst]

theorem stores_nil (hsize : st.size = 0) : Stores optionals st [] st :=
  ⟨rfl, hsize, rfl, nofun, fun _ _ => rfl, fun _ _ => rfl⟩

theorem Stores.cons {u : OptState} {o : NASOpt}
    (hpos : u.pos = st.pos + (o.1.encode o.2).length) (hindex : u.optIndex = st.optIndex + 1)
    (hentry : u.msg.read (optionals + st.optIndex * ieMemberSize) (o.1.stored o.2).length = o.1.stored o.2)
    (hle : (o.1.stored o.2).length ≤ ieMemberSize)
    (hother : ∀ p, p < optionals + st.optIndex * ieMemberSize ∨ optionals + (st.optIndex + 1) * ieMemberSize ≤ p →
      u.msg p = st.msg p)
    (h : Stores optionals u opts st') : Stores optionals st (o :: opts) st' := by
  have hplace : ∀ k, optionals + (st.optIndex + (k + 1)) * ieMemberSize = optionals + (u.optIndex + k) * ieMemberSize := by
    intro k
    rw [hindex, Nat.add_assoc st.optIndex 1 k, Nat.add_comm 1 k]
  refine ⟨?_, h.size, ?_, fun j p hp => ?_, fun p hp => ?_, fun p hp => ?_⟩
  · rw [h.pos, hpos, optOctets, optOctets, List.flatMap_cons, List.length_append, Nat.add_assoc]
  · rw [h.optIndex, hindex, List.length_cons, Nat.add_assoc, Nat.add_comm 1]
  · cases j with
    | zero =>
      cases hp
      rw [Nat.add_zero]
      refine Eq.trans (Mem.read_congr fun k hk => h.before _ ?_) hentry
      rw [hindex, Nat.succ_mul]
      omega
    | succ j =>
      rw [hplace]
      exact h.entry j p hp
  · refine (h.before p ?_).trans (hother p (.inl hp))
    rw [hindex, Nat.succ_mul]
    omega
  · rw [List.length_cons, hplace] at hp
    refine (h.behind p hp).trans (hother p (.inr ?_))
    refine Nat.le_trans ?_ hp
    rw [hindex]
    exact Nat.add_le_add_left (Nat.mul_le_mul_right _ (Nat.le_add_right _ _)) _

/-- The elements that are there are found and stored.  The induction is on the list of the decoder: an element that is
there is next in the buffer, and the decoder of one that is not there does not know the next one. -/
theorem stores_decOptionals (hsep : Separable kinds) (hsub : (opts.map Prod.fst).Sublist kinds)
    (hcarries : ∀ o ∈ opts, o.1.Carries o.2) (hsize : st.size.toNat = (optOctets opts).length)
    (hbuf : buf.read st.pos (optOctets opts).length = optOctets opts) :
    Stores optionals st opts (decOptionals optionals buf kinds st) := by
  induction kinds generalizing st opts with
  | nil =>
    obtain rfl : opts = [] := List.map_eq_nil_iff.mp (List.sublist_nil.mp hsub)
    exact stores_nil (UInt64.toNat_inj.mp hsize)
  | cons kind kinds ih =>
    cases opts with
    | nil =>
      have hzero : st.size = 0 := UInt64.toNat_inj.mp hsize
      rw [decOptionals_of_zero hzero]
      exact stores_nil hzero
    | cons o opts =>
      obtain ⟨k, v⟩ := o
      obtain ⟨hv, hcarries'⟩ := List.forall_mem_cons.mp hcarries
      have hoctets : optOctets ((k, v) :: opts) = k.encode v ++ optOctets opts := List.flatMap_cons
      rw [hoctets, List.length_append] at hsize hbuf
      rw [Mem.read_add] at hbuf
      obtain ⟨hfirst, hrest⟩ := List.append_inj hbuf (Mem.length_read ..)
      have hlead : buf st.pos = k.lead (v.headD 0) := by
        rw [OptKind.encode, List.length_cons, Mem.read_succ] at hfirst
        exact (List.cons.inj hfirst).1
      have hleft : st.size ≠ 0 := by
        intro hzero
        rw [hzero, OptKind.encode, List.length_cons] at hsize
        exact absurd hsize (by rw [show (0 : UInt64).toNat = 0 from rfl]; omega)
      rw [decOptionals_cons]
      rcases List.sublist_cons_iff.mp hsub with hlater | ⟨l, hl, hlater⟩
      · -- the element of the decoder is not there, and the next one is of a later kind
        have hk : k ∈ kinds := hlater.subset List.mem_cons_self
        obtain ⟨b, hb, -⟩ := hv.lead
        have hnone : kind.length (buf st.pos) (buf (st.pos + 1)) = none := by
          rw [hlead, hb]
          exact OptKind.length_eq_none (Option.isNone_iff_eq_none.mp ((List.pairwise_cons.mp hsep.later).1 k hk b))
        have hstay : decOptional optionals buf kind st = st := by
          rw [decOptional, hnone]
          exact ite_self st
        rw [hstay]
        refine ih hsep.tail hlater hcarries ?_ ?_
        · rw [hoctets, List.length_append]
          exact hsize
        · rw [hoctets, List.length_append, Mem.read_add]
          exact hbuf
      · obtain ⟨rfl, rfl⟩ := List.cons.inj hl
        have hlen : k.length (buf st.pos) (buf (st.pos + 1)) = some (k.encode v).length := by
          rw [hlead]
          refine hsep.length_eq hv _ fun l hl a ha => ?_
          rw [OptKind.encode, hl, List.length_cons, Mem.read_succ] at hfirst
          cases l with
          | nil => cases ha
          | cons c l =>
            obtain rfl := Option.some.inj ha
            rw [List.length_cons, Mem.read_succ] at hfirst
            exact (List.cons.inj (List.cons.inj hfirst).2).1.symm
        have htake : decOptional optionals buf k st = ⟨k.store optionals buf st (k.encode v).length,
            st.pos + (k.encode v).length, st.size - UInt64.ofNat (k.encode v).length, st.optIndex + 1⟩ := by
          rw [decOptional, if_neg hleft, hlen]
        have hpos : 1 ≤ (k.encode v).length := Nat.succ_le_succ (Nat.zero_le _)
        have hle := hsep.length_le hv
        have hstored : (k.stored v).length = (k.encode v).length := by
          rw [OptKind.stored_eq, OptKind.encode, List.length_cons, List.length_cons]
        rw [htake]
        refine Stores.cons rfl rfl (store_read hfirst) (by rw [hstored]; exact hle) (fun p hp => ?_)
          (ih hsep.tail hlater hcarries' ?_ ?_)
        · refine store_of_ne hpos (hp.imp_right (Nat.le_trans ?_))
          rw [Nat.succ_mul, ← Nat.add_assoc]
          exact Nat.add_le_add_left hle _
        · rw [Cursor.toNat_sub_ofNat (by omega), hsize, Nat.add_sub_cancel_left]
        · exact hrest

/-! ## Looking up -/

/-- The test of `nas_NASOpt_lookup`. -/
def ieiMatches (iei a : UInt8) : Bool := if iei &&& 0xF8 = 0x08 then a >>> 4 = iei else a = iei

/-- The first octets in the array are not 0, and tell the identifiers apart. -/
structure Marked (kinds : List OptKind) : Prop where
  ne_zero : ∀ k ∈ kinds, ∀ b : Fin 16, k.mark (UInt8.ofNat b) ≠ 0
  half : ∀ k ∈ kinds, ∀ b : Fin 16, k.mark (UInt8.ofNat b) >>> 4 = k.type ∨
    (k.mark (UInt8.ofNat b) >>> 4) &&& 0xF8 ≠ 0x08 ∧ k.type &&& 0xF8 ≠ 0x08
  full : ∀ k ∈ kinds, ∀ b : Fin 16, k.mark (UInt8.ofNat b) = k.type ∨
    128 ≤ (k.mark (UInt8.ofNat b)).toNat ∧ k.type &&& 0xF8 = 0x08
  nodup : (kinds.map OptKind.type).Nodup

theorem Marked.ieiMatches (h : Marked kinds) (hk : kind ∈ kinds) (b : Fin 16) (hiei : iei.toNat < 128) :
    NAS.ieiMatches iei (kind.mark (UInt8.ofNat b)) = decide (kind.type = iei) := by
  unfold NAS.ieiMatches
  split
  · rename_i hhalf
    refine decide_eq_decide.mpr ?_
    rcases h.half kind hk b with hmark | ⟨hmark, htype⟩
    · rw [hmark]
    · constructor
      · rintro rfl
        exact absurd hhalf hmark
      · rintro rfl
        exact absurd hhalf htype
  · rename_i hfull
    refine decide_eq_decide.mpr ?_
    rcases h.full kind hk b with hmark | ⟨hge, htype⟩
    · rw [hmark]
    · constructor
      · rintro rfl
        exact absurd hiei (Nat.not_lt.mpr hge)
      · rintro rfl
        exact absurd htype hfull

theorem nasNASOptLookupFrom_succ (fuel i : Nat) :
    nasNASOptLookupFrom msg optionals iei (fuel + 1) i =
      if msg (optionals + i * ieMemberSize) = 0 then none
      else if ieiMatches iei (msg (optionals + i * ieMemberSize)) then some (optionals + i * ieMemberSize)
      else nasNASOptLookupFrom msg optionals iei fuel (i + 1) := by
  rw [nasNASOptLookupFrom, ieiMatches]
  by_cases hhalf : iei &&& 0xF8 = 0x08
  · simp only [if_pos hhalf, decide_eq_true_eq]
  · simp only [if_neg hhalf, decide_eq_true_eq]

theorem nasNASOptLookupFrom_eq (hmark : Marked kinds) (hkinds : ∀ o ∈ opts, o.1 ∈ kinds)
    (hcarries : ∀ o ∈ opts, o.1.Carries o.2) (hiei : iei.toNat < 128) (i fuel : Nat) (hle : opts.length ≤ fuel)
    (hentry : ∀ j o, opts[j]? = some o → msg (optionals + (i + j) * ieMemberSize) = o.1.mark (o.2.headD 0))
    (hend : opts.length < fuel → msg (optionals + (i + opts.length) * ieMemberSize) = 0) :
    nasNASOptLookupFrom msg optionals iei fuel i =
      (opts.findIdx? fun o => o.1.type = iei).map fun j => optionals + (i + j) * ieMemberSize := by
  induction opts generalizing i fuel with
  | nil =>
    cases fuel with
    | zero => rfl
    | succ fuel =>
      have hzero := hend (Nat.succ_pos _)
      rw [List.length_nil, Nat.add_zero] at hzero
      rw [nasNASOptLookupFrom_succ, if_pos hzero]
      rfl
  | cons o opts ih =>
    cases fuel with
    | zero => cases hle
    | succ fuel =>
      obtain ⟨hk, hkinds⟩ := List.forall_mem_cons.mp hkinds
      obtain ⟨hv, hcarries⟩ := List.forall_mem_cons.mp hcarries
      obtain ⟨b, -, hb⟩ := hv.lead
      have hfirst := hentry 0 o rfl
      rw [Nat.add_zero, hb] at hfirst
      rw [nasNASOptLookupFrom_succ, hfirst, if_neg (hmark.ne_zero o.1 hk b), hmark.ieiMatches hk b hiei,
        List.findIdx?_cons]
      by_cases htype : o.1.type = iei
      · simp only [htype, decide_true, if_true, Option.map_some, Nat.add_zero]
      · have hplace : ∀ j, optionals + (i + (j + 1)) * ieMemberSize = optionals + (i + 1 + j) * ieMemberSize := by
          intro j
          rw [Nat.add_assoc i 1 j, Nat.add_comm 1 j]
        have hrest := ih hkinds hcarries (i + 1) fuel (Nat.le_of_succ_le_succ hle)
          (fun j p hp => by rw [← hplace]; exact hentry (j + 1) p hp)
          (fun hlt => by rw [← hplace]; exact hend (Nat.succ_lt_succ hlt))
        simp only [htype, decide_false, Bool.false_eq_true, if_false, hrest, Option.map_map]
        refine Option.map_congr fun j _ => ?_
        rw [Function.comp_apply, hplace]

/-! ## Attach Requests -/

theorem separable_attachRequest : Separable Format.attachRequest.optionals where
  later := by decide +kernel
  self := by decide +kernel
  fits := by decide +kernel

theorem marked_attachRequest : Marked Format.attachRequest.optionals where
  ne_zero := by decide +kernel
  half := by decide +kernel
  full := by decide +kernel
  nodup := by decide +kernel

/-- An Attach Request: its mandatory elements, and at most 17 of the optional ones, in the order of the decoder. -/
structure AttachRequestMsg where
  first : UInt8
  ePSMobileId : List UInt8
  uENetworkCapability : List UInt8
  eSMMessageContainer : List UInt8
  opts : List NASOpt
  id_le : ePSMobileId.length ≤ 255
  cap_le : uENetworkCapability.length ≤ 255
  esm_le : eSMMessageContainer.length ≤ 65535
  sublist : (opts.map Prod.fst).Sublist Format.attachRequest.optionals
  carries : ∀ o ∈ opts, o.1.Carries o.2
  opts_le : opts.length ≤ 17

namespace AttachRequestMsg

variable (m : AttachRequestMsg)

/-- The octets behind the message type. -/
def octets : List UInt8 :=
  m.first :: UInt8.ofNat m.ePSMobileId.length :: (m.ePSMobileId ++
    UInt8.ofNat m.uENetworkCapability.length :: (m.uENetworkCapability ++
      UInt8.ofNat (m.eSMMessageContainer.length / 256) :: UInt8.ofNat (m.eSMMessageContainer.length % 256) ::
        (m.eSMMessageContainer ++ optOctets m.opts)))

theorem rest_lv {v l : List UInt8} (h : v.length ≤ 255) :
    Element.rest .lv (UInt8.ofNat v.length :: (v ++ l)) = some l := by
  have htoNat : (UInt8.ofNat v.length).toNat = v.length := by
    exact Nat.mod_eq_of_lt (by omega)
  rw [Element.rest, htoNat, if_pos (by rw [List.length_append]; exact Nat.le_add_right _ _), List.drop_left]

theorem rest_lvE {v l : List UInt8} (h : v.length ≤ 65535) :
    Element.rest .lvE (UInt8.ofNat (v.length / 256) :: UInt8.ofNat (v.length % 256) :: (v ++ l)) = some l := by
  have hlen : Element.length16 (UInt8.ofNat (v.length / 256)) (UInt8.ofNat (v.length % 256)) = v.length := by
    rw [Element.length16, UInt8.toNat_ofNat', UInt8.toNat_ofNat']
    omega
  rw [Element.rest, hlen, if_pos (by rw [List.length_append]; exact Nat.le_add_right _ _), List.drop_left]

theorem mandatory_rest :
    Format.attachRequest.mandatory.foldlM (fun l e => e.rest l) m.octets = some (optOctets m.opts) := by
  have hfirst : Element.rest .v m.octets = some m.octets.tail := rfl
  simp only [Format.attachRequest, List.foldlM_cons, hfirst, Option.bind_eq_bind, Option.bind_some]
  rw [octets, List.tail_cons, rest_lv m.id_le, Option.bind_some, rest_lv m.cap_le, Option.bind_some, rest_lvE m.esm_le]
  rfl

theorem length_optOctets_le {kinds : List OptKind} (opts : List NASOpt) (hsep : Separable kinds)
    (hkinds : ∀ o ∈ opts, o.1 ∈ kinds) (hcarries : ∀ o ∈ opts, o.1.Carries o.2) :
    (optOctets opts).length ≤ opts.length * ieMemberSize := by
  induction opts with
  | nil => exact Nat.zero_le _
  | cons o opts ih =>
    obtain ⟨hk, hkinds⟩ := List.forall_mem_cons.mp hkinds
    obtain ⟨hv, hcarries⟩ := List.forall_mem_cons.mp hcarries
    have hself : Separable [o.1] := by
      refine ⟨List.pairwise_singleton .., ?_, ?_⟩
      · exact List.forall_mem_singleton.mpr (hsep.self o.1 hk)
      · exact List.forall_mem_singleton.mpr (hsep.fits o.1 hk)
    have hle := hself.length_le hv
    have hrest := ih hkinds hcarries
    rw [optOctets] at hrest ⊢
    rw [List.flatMap_cons, List.length_append, List.length_cons, Nat.succ_mul]
    omega

theorem opts_mem (o : NASOpt) (ho : o ∈ m.opts) : o.1 ∈ Format.attachRequest.optionals :=
  m.sublist.subset (List.mem_map_of_mem ho)

theorem length_lt : m.octets.length < 2 ^ 64 := by
  have hopts := length_optOctets_le m.opts separable_attachRequest m.opts_mem m.carries
  have hid := m.id_le
  have hcap := m.cap_le
  have hesm := m.esm_le
  have hle := m.opts_le
  simp only [octets, List.length_cons, List.length_append]
  rw [ieMemberSize] at hopts
  omega

end AttachRequestMsg

/-- The arguments of the optional decoders at the end of `dec_AttachRequest`. -/
def decAttachRequestEnd (msg : GenericNASMsg) (buf : Mem) (size : UInt64) : OptState :=
  decOptionals attachRequestOptionals buf Format.attachRequest.optionals
    ⟨attachRequestMandatory msg buf, ((Cursor.start size).elements true buf Format.attachRequest.mandatory).pos,
      ((Cursor.start size).elements true buf Format.attachRequest.mandatory).left, 0⟩

/-- The place of an optional element of an Attach Request. -/
def attachRequestOpt (j : Nat) : Nat := attachRequestOptionals + j * ieMemberSize

theorem attachRequestMandatory_of_le {p : Nat} (hp : attachRequestOptionals ≤ p) :
    attachRequestMandatory msg buf p = msg p := by
  have hle : ∀ a b : UInt8, a.toNat * 256 + b.toNat ≤ 65535 := by
    intro a b
    have := a.toNat_lt
    have := b.toNat_lt
    omega
  have hlv : ∀ {msg : GenericNASMsg} {off pos : Nat}, off + 256 ≤ p → decLv msg buf off pos p = msg p := by
    intro msg off pos hoff
    have := (buf pos).toNat_lt
    unfold decLv
    rw [Mem.copy_of_le _ _ _ _ _ (by omega), Mem.set_of_ne _ _ _ _ (by omega)]
  have hlvE : ∀ {msg : GenericNASMsg} {pos : Nat}, decLvE msg buf 517 pos p = msg p := by
    intro msg pos
    have hlen := hle (buf pos) (buf (pos + 1))
    rw [attachRequestOptionals] at hp
    unfold decLvE
    rw [Mem.copy_of_le _ _ _ _ _ (by rw [beLength]; omega), Mem.set_of_ne _ _ _ _ (by omega),
      Mem.set_of_ne _ _ _ _ (by omega)]
  rw [attachRequestOptionals] at hp
  unfold attachRequestMandatory
  rw [hlvE, hlv (by omega), hlv (by omega), Mem.setHigh_of_ne _ _ _ _ (by omega), Mem.setLow_of_ne _ _ _ _ (by omega)]

/-- `dec_AttachRequest` takes the whole message, stores the optional elements in their order, and
`nas_NASOpt_lookup` finds exactly those that are there.  The array was cleared by `dec_NAS`. -/
theorem attachRequest_decoded (m : AttachRequestMsg) (msg : GenericNASMsg) (buf : Mem)
    (hclear : ∀ p, attachRequestOptionals ≤ p → msg p = 0) (hbuf : buf.read 0 m.octets.length = m.octets) :
    let size := UInt64.ofNat m.octets.length
    let res := decAttachRequest msg buf size
    res = (decAttachRequestEnd msg buf size).msg ∧
      (decAttachRequestEnd msg buf size).pos = m.octets.length ∧ (decAttachRequestEnd msg buf size).size = 0 ∧
      (decAttachRequestEnd msg buf size).optIndex = m.opts.length ∧
      (∀ j o, m.opts[j]? = some o → res.read (attachRequestOpt j) (o.1.stored o.2).length = o.1.stored o.2) ∧
      (∀ p, attachRequestOpt m.opts.length ≤ p → res p = 0) ∧
      ∀ iei : UInt8, iei.toNat < 128 →
        (∀ j o, m.opts[j]? = some o → o.1.type = iei →
          nasNASOptLookup res attachRequestOptionals 17 iei = some (attachRequestOpt j)) ∧
        ((∀ o ∈ m.opts, o.1.type ≠ iei) → nasNASOptLookup res attachRequestOptionals 17 iei = none) := by
  intro size res
  have htoNat : size.toNat = m.octets.length := by
    exact Nat.mod_eq_of_lt m.length_lt
  -- the mandatory elements end where the optional ones start
  have hrest : Format.attachRequest.mandatory.foldlM (fun l e => e.rest l) (buf.read 0 size.toNat) =
      some (optOctets m.opts) := by
    rw [htoNat, hbuf]
    exact m.mandatory_rest
  obtain ⟨n, hwithin, hopts⟩ := (Cursor.within_start size).elements hrest
  have hn : n = (optOctets m.opts).length := by
    rw [hopts, Mem.length_read]
  subst hn
  have hstores : Stores attachRequestOptionals _ m.opts (decAttachRequestEnd msg buf size) :=
    @stores_decOptionals _ _ ⟨attachRequestMandatory msg buf, _, _, 0⟩ _ _ separable_attachRequest m.sublist m.carries
      (hwithin.left rfl) hopts.symm
  have hres : res = (decAttachRequestEnd msg buf size).msg := decAttachRequest_eq
  have hentry : ∀ j o, m.opts[j]? = some o →
      res.read (attachRequestOpt j) (o.1.stored o.2).length = o.1.stored o.2 := by
    intro j o ho
    have hread := hstores.entry j o ho
    rw [Nat.zero_add] at hread
    rw [hres]
    exact hread
  have hclean : ∀ p, attachRequestOpt m.opts.length ≤ p → res p = 0 := by
    intro p hp
    have hge := Nat.le_trans (Nat.le_add_right _ _) hp
    have hbehind := hstores.behind p (by rw [Nat.zero_add]; exact hp)
    rw [hres, hbehind]
    exact (attachRequestMandatory_of_le hge).trans (hclear p hge)
  refine ⟨hres, ?_, hstores.size, by rw [hstores.optIndex, Nat.zero_add], hentry, hclean, fun iei hiei => ?_⟩
  · rw [hstores.pos]
    exact hwithin.pos.trans htoNat
  have hlookup : nasNASOptLookup res attachRequestOptionals 17 iei =
      (m.opts.findIdx? fun o => o.1.type = iei).map attachRequestOpt := by
    have hfrom := @nasNASOptLookupFrom_eq attachRequestOptionals _ _ res _ marked_attachRequest m.opts_mem
      m.carries hiei 0 17 m.opts_le
      (fun j o ho => by
        have hread := hentry j o ho
        rw [OptKind.stored_eq, List.length_cons, Mem.read_succ] at hread
        rw [Nat.zero_add]
        exact (List.cons.inj hread).1)
      (fun _ => by
        rw [Nat.zero_add]
        exact hclean _ (Nat.le_refl _))
    simp only [Nat.zero_add] at hfrom
    exact hfrom
  rw [hlookup]
  refine ⟨fun j o ho htype => ?_, fun hnone => ?_⟩
  · -- no other element has the identifier
    have hnodup : (m.opts.map fun o => o.1.type).Nodup := by
      have hsub := (m.sublist.map OptKind.type).nodup marked_attachRequest.nodup
      rwa [List.map_map] at hsub
    obtain ⟨hj, hoj⟩ := List.getElem?_eq_some_iff.mp ho
    have hfind : (m.opts.findIdx? fun o => o.1.type = iei) = some j := by
      rw [List.findIdx?_eq_some_iff_getElem]
      refine ⟨hj, by simpa [hoj] using htype, fun i hi hmatch => ?_⟩
      have hsame : (m.opts.map fun o => o.1.type)[i]? = (m.opts.map fun o => o.1.type)[j]? := by
        rw [List.getElem?_map, List.getElem?_map, ho, List.getElem?_eq_getElem (Nat.lt_trans hi hj)]
        simp only [Option.map_some, htype]
        simpa using hmatch
      have hlt : i < (m.opts.map fun o => o.1.type).length := by
        rw [List.length_map]
        exact Nat.lt_trans hi hj
      exact absurd ((List.getElem?_inj hlt hnodup).mp hsame) (Nat.ne_of_lt hi)
    rw [hfind]
    rfl
  · have hfind : (m.opts.findIdx? fun o => o.1.type = iei) = none := by
      rw [List.findIdx?_eq_none_iff]
      intro o ho
      simpa using hnone o ho
    rw [hfind]
    rfl

/-- An Attach Request with an IMSI of five digits, an empty ESM message, a TLV whose value looks like other
identifiers, and two elements of one octet. -/
def sampleAttachRequest : AttachRequestMsg where
  first := 0x71
  ePSMobileId := [0x29, 0x80, 0x39]
  uENetworkCapability := [0xe0, 0xe0]
  eSMMessageContainer := []
  opts := [(.tlv 0x31, [0x11, 0x90, 0x5E]), (.tvT1 0x9 0x1, [0x3]), (.tvT1 0xC 0x1, [0x0])]
  id_le := by decide
  cap_le := by decide
  esm_le := by decide
  sublist := by
    refine .cons _ (.cons _ (.cons _ (.cons _ (.cons_cons _ (.cons _ (.cons_cons _ ?_))))))
    exact .cons _ (.cons _ (.cons _ (.cons _ (.cons _ (.cons _ (.cons _ (.cons_cons _ (List.nil_sublist _))))))))
  carries := by
    intro o ho
    rcases List.mem_cons.mp ho with rfl | ho
    · exact (by decide : 3 ≤ 255)
    rcases List.mem_cons.mp ho with rfl | ho
    · exact ⟨3, rfl⟩
    obtain rfl := List.mem_singleton.mp ho
    exact ⟨0, rfl⟩
  opts_le := by decide

/-- The TMSI status is found, and the supported codecs are not. -/
theorem attachRequest_decoded_sample :
    let res := decAttachRequest Mem.zero (.ofList sampleAttachRequest.octets)
      (UInt64.ofNat sampleAttachRequest.octets.length)
    nasNASOptLookup res attachRequestOptionals 17 0x9 = some (attachRequestOpt 1) ∧
      nasNASOptLookup res attachRequestOptionals 17 0x40 = none := by
  intro res
  have hread : (Mem.ofList sampleAttachRequest.octets).read 0 sampleAttachRequest.octets.length =
      sampleAttachRequest.octets := by decide
  obtain ⟨-, -, -, -, -, -, hlookup⟩ :=
    attachRequest_decoded sampleAttachRequest Mem.zero (.ofList sampleAttachRequest.octets) (fun _ _ => rfl) hread
  refine ⟨(hlookup 0x9 (by decide)).1 1 (.tvT1 0x9 0x1, [0x3]) rfl rfl, (hlookup 0x40 (by decide)).2 ?_⟩
  intro o ho
  rcases List.mem_cons.mp ho with rfl | ho
  · decide
  rcases List.mem_cons.mp ho with rfl | ho
  · decide
  obtain rfl := List.mem_singleton.mp ho
  decide

end AaltoMME.NAS
