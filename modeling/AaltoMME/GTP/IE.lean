import AaltoMME.Platform

/-!
# Information elements of GTPv2

`gtpie.c` and the default header of `gtp.c`.  A packet, an element and a group of elements are memories; a
pointer to an element is its offset.  The arrays that `gtp2ie_decap` and `gtp2ie_decaps_group` fill are not
initialised before, so an entry that was never written is `unset`.  The octets that they read and the entries
that they write are recorded, so that it can be said where these lie.
-/

namespace AaltoMME

open Base

/-- An information element of a GTPv2 packet. -/
structure GtpIE where
  t : UInt8
  i : UInt8
  v : List UInt8
  deriving DecidableEq, Repr

namespace GTP

/-- `GTPIE_SIZE`. -/
def gtpieSize : Nat := 256

/-- `GTPIE_MAX`. -/
def gtpieMax : Nat := 0xffff

/-- `EOF`. -/
def eof : Int := -1

/-! ## Lengths -/

/-- `ntoh16` of a field of 16 bits. -/
def ntoh16 (m : Mem) (off : Nat) : Nat := (m off).toNat * 256 + (m (off + 1)).toNat

/-- Store `hton16` of a number in a field of 16 bits. -/
def hton16 (m : Mem) (off n : Nat) : Mem := (m.set off (UInt8.ofNat (n / 256))).set (off + 1) (UInt8.ofNat n)

/-- `header->length`. -/
def headerLength (pack : Mem) : Nat := ntoh16 pack 2

/-- `tliv.l` of the element at an offset. -/
def tlivLength (m : Mem) (p : Nat) : Nat := ntoh16 m (p + 1)

/-- `get_default_gtp` for the version 2: the packet with its header, and the length of the header. -/
def getDefaultGtp (type : UInt8) (pack : Mem) : Mem × Nat :=
  let pack :=
    if type = 1 ∨ type = 2 then hton16 ((pack.copy .zero 0 8).set 0 0x40) 2 4
    else hton16 ((pack.copy .zero 0 12).set 0 0x48) 2 8
  let pack := pack.set 1 type
  (pack, headerLength pack + 4)

/-! ## Encapsulation -/

/-- The loop of `gtp2ie_encaps` and of `gtp2ie_encaps_group`: the elements are copied to `p` one after the
other, as long as they end before `last`, and the length at the offset `off` grows.  The result is the return
value, the memory and the end of the last element. -/
def encapsLoop (off last : Nat) : List Mem → Mem → Nat → Int × Mem × Nat
  | [], m, p => (0, m, p)
  | ie :: ies, m, p =>
    let iesize := 4 + tlivLength ie 0
    if p + iesize < last then
      let m := m.copy ie p iesize
      encapsLoop off last ies (hton16 m off (ntoh16 m off + iesize)) (p + iesize)
    else (-1, m, p)

/-- `gtp2ie_encaps`: the return value, the packet and its length. -/
def gtp2ieEncaps (ies : List Mem) (pack : Mem) (len : Nat) : Int × Mem × Nat :=
  encapsLoop 2 (len + gtpieMax) ies (pack.copy .zero len gtpieMax) len

/-- `gtp2ie_encaps_group`: the return value and the element. -/
def gtp2ieEncapsGroup (type inst : UInt8) (dst : Mem) (ies : List Mem) : Int × Mem :=
  let r := encapsLoop 1 (4 + gtpieMax) ies (hton16 ((dst.set 0 type).set 3 inst) 1 0) 4
  (r.1, r.2.1)

/-! ## Decapsulation -/

/-- An entry of an array of pointers to elements. -/
inductive IEEntry
  | unset
  | null
  | elem (p : Nat)
  deriving DecidableEq, Repr

/-- The variables of `gtp2ie_decap` and `gtp2ie_decaps_group`, with the octets read and the entries written. -/
structure Decap where
  p : Nat
  j : Nat
  ie : Nat → IEEntry
  reads : List Nat
  writes : List Nat

/-- The loop, which runs as long as `j` is less than `GTPIE_SIZE`; the first argument is what is left of
it. -/
def decapLoop (m : Mem) (last : Nat) : Nat → Decap → Decap
  | 0, d => d
  | n + 1, d =>
    if d.p < last then
      decapLoop m last n
        { p := d.p + (4 + tlivLength m d.p)
          j := d.j + 1
          ie := Function.update d.ie d.j (.elem d.p)
          reads := d.reads ++ [d.p + 1, d.p + 2]
          writes := d.writes ++ [d.j] }
    else d

/-- The end of both functions: the return value and the variables. -/
def decapEnd (last : Nat) (d : Decap) : Int × Decap :=
  if d.p = last then (0, { d with ie := Function.update d.ie d.j .null, writes := d.writes ++ [d.j] })
  else (eof, d)

/-- Where the elements of a packet start. -/
def ieStart (pack : Mem) : Nat := if pack 0 &&& 0xe8 = 0x40 then 8 else 12

/-- `gtp2ie_decap`. -/
def gtp2ieDecap (pack : Mem) (len : Nat) : Int × Decap :=
  decapEnd len (decapLoop pack len gtpieSize ⟨ieStart pack, 0, fun _ => .unset, [0], []⟩)

/-- `gtp2ie_decaps_group`; `*size` is `j`. -/
def gtp2ieDecapsGroup (src : Mem) (len : Nat) : Int × Decap :=
  decapEnd len (decapLoop src len gtpieSize ⟨0, 0, fun _ => .unset, [], []⟩)

/-- The loop of `gtpie_getie` from the entry `j` on: the element that is found. -/
def gtpieGetie (m : Mem) (ie : Nat → IEEntry) (type inst : UInt8) : Nat → Nat → Outcome (Option Nat)
  | 0, _ => .ok none
  | n + 1, j =>
    match ie j with
    | .unset => .error .uninitialised
    | .null => .ok none
    | .elem p => if m p = type ∧ m (p + 3) = inst then .ok (some p) else gtpieGetie m ie type inst n (j + 1)

/-- `gtp2ie_gettliv`: the return value and the octets copied, whose number is stored in `*iesize`. -/
def gtp2ieGettliv (m : Mem) (ie : Nat → IEEntry) (type inst : UInt8) : Outcome (Int × List UInt8) := do
  match ← gtpieGetie m ie type inst gtpieSize 0 with
  | none => pure (eof, [])
  | some p => pure (0, m.read (p + 4) (tlivLength m p))

/-! ## The format -/

end GTP

def GtpIE.octets (e : GtpIE) : List UInt8 :=
  e.t :: UInt8.ofNat (e.v.length / 256) :: UInt8.ofNat e.v.length :: e.i :: e.v

/-- The octets of a list of elements. -/
def GtpIE.concat (ies : List GtpIE) : List UInt8 := ies.flatMap GtpIE.octets

@[simp] theorem GtpIE.length_octets (e : GtpIE) : e.octets.length = 4 + e.v.length := by
  simp [GtpIE.octets]
  omega

@[simp] theorem GtpIE.concat_nil : GtpIE.concat [] = [] := rfl

@[simp] theorem GtpIE.concat_cons (e : GtpIE) (ies : List GtpIE) :
    GtpIE.concat (e :: ies) = e.octets ++ GtpIE.concat ies := rfl

namespace GTP

/-- The memory holds the element at an offset. -/
def Holds (m : Mem) (p : Nat) (e : GtpIE) : Prop := m.read p e.octets.length = e.octets ∧ e.v.length < 2 ^ 16

/-- The octets from `start` to `len` are a concatenation of fewer than `GTPIE_SIZE` elements. -/
def IsConcat (m : Mem) (start len : Nat) : Prop :=
  ∃ ies : List GtpIE, ies.length < gtpieSize ∧ (∀ e ∈ ies, e.v.length < 2 ^ 16) ∧
    start + (GtpIE.concat ies).length = len ∧ m.read start (GtpIE.concat ies).length = GtpIE.concat ies

variable {m : Mem} {p last : Nat} {e : GtpIE}

theorem ntoh16_lt (m : Mem) (off : Nat) : ntoh16 m off < 2 ^ 16 := by
  have hhigh := (m off).toNat_lt
  have hlow := (m (off + 1)).toNat_lt
  unfold ntoh16
  omega

theorem ntoh16_hton16 {n off : Nat} (hn : n < 2 ^ 16) : ntoh16 (hton16 m off n) off = n := by
  rw [ntoh16, hton16, Mem.set_self, Mem.set_of_ne _ _ _ _ (by omega), Mem.set_self, UInt8.toNat_ofNat',
    UInt8.toNat_ofNat']
  omega

theorem hton16_of_ne {n off k : Nat} (h : k ≠ off) (h' : k ≠ off + 1) : hton16 m off n k = m k := by
  rw [hton16, Mem.set_of_ne _ _ _ _ h', Mem.set_of_ne _ _ _ _ h]

/-- The element at an offset, whatever the memory holds there. -/
def elementAt (m : Mem) (p : Nat) : GtpIE := ⟨m p, m (p + 3), m.read (p + 4) (tlivLength m p)⟩

theorem octets_elementAt : (elementAt m p).octets = m.read p (4 + tlivLength m p) := by
  have hlow := (m (p + 2)).toNat_lt
  have hlen : tlivLength m p = (m (p + 1)).toNat * 256 + (m (p + 2)).toNat := rfl
  have hdiv : tlivLength m p / 256 = (m (p + 1)).toNat := by omega
  have hmod : UInt8.ofNat (tlivLength m p) = m (p + 2) := by
    rw [← UInt8.toNat_inj, UInt8.toNat_ofNat']
    omega
  rw [Mem.read_add]
  simp only [GtpIE.octets, elementAt, Mem.length_read, hdiv, hmod, UInt8.ofNat_toNat]
  rfl

theorem holds_elementAt : Holds m p (elementAt m p) := by
  constructor
  · rw [octets_elementAt, Mem.length_read]
  · rw [elementAt, Mem.length_read]
    exact ntoh16_lt ..

namespace Holds

theorem getElem? (h : Holds m p e) (k : Nat) (hk : k < 4 + e.v.length) : e.octets[k]? = some (m (p + k)) := by
  have hk' : k < e.octets.length := by rwa [GtpIE.length_octets]
  rw [Mem.read_eq_iff.mp h.1 k hk']
  exact List.getElem?_eq_getElem hk'

theorem tlivLength_eq (h : Holds m p e) : tlivLength m p = e.v.length := by
  have hlt := h.2
  have h₁ := Option.some.inj (h.getElem? 1 (by omega))
  have h₂ := Option.some.inj (h.getElem? 2 (by omega))
  rw [tlivLength, ntoh16, ← h₁, ← h₂, UInt8.toNat_ofNat', UInt8.toNat_ofNat']
  omega

theorem elementAt_eq (h : Holds m p e) : elementAt m p = e := by
  have hlen := h.tlivLength_eq
  have h₀ : e.t = m p := Option.some.inj (h.getElem? 0 (by omega))
  have h₃ := Option.some.inj (h.getElem? 3 (by omega))
  have hv : m.read (p + 4) e.v.length = e.v := by
    refine Mem.read_eq_iff.mpr fun k hk => ?_
    have hk' : e.v[k]? = some (m (p + (k + 4))) := h.getElem? (k + 4) (by omega)
    rw [List.getElem?_eq_getElem hk] at hk'
    rw [Option.some.inj hk', Nat.add_assoc, Nat.add_comm 4]
  rw [elementAt, ← h₀, ← h₃, hlen, hv]

end Holds

/-! ## The elements of a memory -/

/-- The offsets that the loop stores, and where it ends. -/
def elements (m : Mem) (last : Nat) : Nat → Nat → List Nat × Nat
  | 0, p => ([], p)
  | n + 1, p =>
    if p < last then
      (p :: (elements m last n (p + (4 + tlivLength m p))).1, (elements m last n (p + (4 + tlivLength m p))).2)
    else ([], p)

/-- The offsets of the elements of a list that starts at `p`. -/
def starts : Nat → List GtpIE → List Nat
  | _, [] => []
  | p, e :: ies => p :: starts (p + (4 + e.v.length)) ies

@[simp] theorem length_starts (p : Nat) (ies : List GtpIE) : (starts p ies).length = ies.length := by
  induction ies generalizing p with
  | nil => rfl
  | cons e ies ih => simp [starts, ih]

/-- A loop that lands at the end has passed a concatenation of elements. -/
theorem concat_of_elements (n : Nat) (h : (elements m last n p).2 = last) :
    ∃ ies : List GtpIE, (elements m last n p).1 = starts p ies ∧ (∀ e ∈ ies, e.v.length < 2 ^ 16) ∧
      p + (GtpIE.concat ies).length = last ∧ m.read p (GtpIE.concat ies).length = GtpIE.concat ies := by
  induction n generalizing p with
  | zero => exact ⟨[], rfl, nofun, h, rfl⟩
  | succ n ih =>
    rw [elements] at h ⊢
    split at h
    · rename_i hp
      obtain ⟨ies, hstarts, hlt, hend, hread⟩ := ih h
      have hlen : (elementAt m p).octets.length = 4 + tlivLength m p := by rw [octets_elementAt, Mem.length_read]
      refine ⟨elementAt m p :: ies, ?_, ?_, ?_, ?_⟩
      · rw [if_pos hp, hstarts, starts, ← GtpIE.length_octets, hlen]
      · exact List.forall_mem_cons.mpr ⟨holds_elementAt.2, hlt⟩
      · rw [GtpIE.concat_cons, List.length_append]
        omega
      · rw [GtpIE.concat_cons, List.length_append, Mem.read_add, hlen, hread, octets_elementAt]
    · rename_i hp
      rw [if_neg hp]
      exact ⟨[], rfl, nofun, h, rfl⟩

theorem holds_of_concat {ies : List GtpIE} (hlt : ∀ f ∈ e :: ies, f.v.length < 2 ^ 16)
    (hread : m.read p (GtpIE.concat (e :: ies)).length = GtpIE.concat (e :: ies)) :
    Holds m p e ∧ m.read (p + (4 + e.v.length)) (GtpIE.concat ies).length = GtpIE.concat ies := by
  rw [GtpIE.concat_cons, List.length_append, Mem.read_add] at hread
  obtain ⟨hfirst, hrest⟩ := List.append_inj hread (by rw [Mem.length_read])
  rw [GtpIE.length_octets] at hrest
  exact ⟨⟨hfirst, hlt e List.mem_cons_self⟩, hrest⟩

theorem elements_of_concat {ies : List GtpIE} {n : Nat} (hn : ies.length ≤ n) (hlt : ∀ e ∈ ies, e.v.length < 2 ^ 16)
    (hend : p + (GtpIE.concat ies).length = last) (hread : m.read p (GtpIE.concat ies).length = GtpIE.concat ies) :
    elements m last n p = (starts p ies, last) := by
  induction n generalizing p ies with
  | zero =>
    obtain rfl := List.length_eq_zero_iff.mp (Nat.le_zero.mp hn)
    exact congrArg (Prod.mk []) hend
  | succ n ih =>
    cases ies with
    | nil =>
      obtain rfl : p = last := hend
      rw [elements, if_neg (Nat.lt_irrefl p)]
      rfl
    | cons e ies =>
      obtain ⟨hfirst, hrest⟩ := holds_of_concat hlt hread
      have hlen : p + (4 + e.v.length) + (GtpIE.concat ies).length = last := by
        rw [GtpIE.concat_cons, List.length_append, GtpIE.length_octets] at hend
        omega
      have hp : p < last := by omega
      rw [elements, if_pos hp, hfirst.tlivLength_eq,
        ih (Nat.le_of_succ_le_succ hn) (fun f hf => hlt f (List.mem_cons_of_mem _ hf)) hlen hrest]
      rfl

theorem decapLoop_eq (n : Nat) (d : Decap) :
    decapLoop m last n d =
      { p := (elements m last n d.p).2
        j := d.j + (elements m last n d.p).1.length
        ie := fun k => if k < d.j then d.ie k else ((elements m last n d.p).1[k - d.j]?).elim (d.ie k) .elem
        reads := d.reads ++ (elements m last n d.p).1.flatMap fun p => [p + 1, p + 2]
        writes := d.writes ++ List.range' d.j (elements m last n d.p).1.length } := by
  induction n generalizing d with
  | zero => simp [decapLoop, elements]
  | succ n ih =>
    rw [decapLoop, elements]
    split
    · rw [ih]
      simp only [Decap.mk.injEq, List.length_cons, List.flatMap_cons, List.append_assoc, List.range'_succ,
        List.singleton_append, true_and]
      refine ⟨by omega, ?_, trivial⟩
      funext k
      rcases Nat.lt_trichotomy k d.j with hk | rfl | hk
      · rw [if_pos (by omega), if_pos hk, Function.update_of_ne (by omega)]
      · rw [if_pos (by omega), if_neg (by omega), Function.update_self, Nat.sub_self]
        rfl
      · obtain ⟨i, rfl⟩ : ∃ i, k = d.j + 1 + i := ⟨k - (d.j + 1), by omega⟩
        rw [if_neg (by omega), if_neg (by omega), Function.update_of_ne (by omega), Nat.add_sub_cancel_left,
          show d.j + 1 + i - d.j = i + 1 by omega, List.getElem?_cons_succ]
    · simp

end GTP

end AaltoMME
