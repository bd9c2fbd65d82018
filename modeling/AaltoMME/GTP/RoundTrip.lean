import AaltoMME.GTP.IE
import Mathlib.Data.List.Forall2

/-!
# Round trip of information elements

What `gtp2ie_encaps` and `gtp2ie_encaps_group` write is the concatenation of the elements, and what
`gtp2ie_decap`, `gtp2ie_decaps_group` and `gtp2ie_gettliv` find in a concatenation is its list of elements.
-/

namespace AaltoMME.GTP

open Base

variable {m : Mem} {p last : Nat} {e : GtpIE} {ies : List GtpIE}

/-! ## Decapsulation of a concatenation -/

theorem forall₂_starts (hlt : ∀ e ∈ ies, e.v.length < 2 ^ 16)
    (hread : m.read p (GtpIE.concat ies).length = GtpIE.concat ies) : List.Forall₂ (Holds m) (starts p ies) ies := by
  induction ies generalizing p with
  | nil => exact .nil
  | cons e ies ih =>
    obtain ⟨hfirst, hrest⟩ := holds_of_concat hlt hread
    exact .cons hfirst (ih (fun f hf => hlt f (List.mem_cons_of_mem _ hf)) hrest)

/-- The array after a concatenation was read: its elements, NULL, and what was there before. -/
def pointers (os : List Nat) : Nat → IEEntry :=
  Function.update (fun k => (os[k]?).elim .unset .elem) os.length .null

theorem pointers_of_getElem? {os : List Nat} {k q : Nat} (h : os[k]? = some q) : pointers os k = .elem q := by
  have hk : k < os.length := (List.getElem?_eq_some_iff.mp h).1
  rw [pointers, Function.update_of_ne (by omega), h]
  rfl

/-- Both decapsulation functions on a concatenation of at most `GTPIE_SIZE` elements. -/
theorem decapEnd_of_concat {reads : List Nat} (hn : ies.length ≤ gtpieSize) (hlt : ∀ e ∈ ies, e.v.length < 2 ^ 16)
    (hend : p + (GtpIE.concat ies).length = last) (hread : m.read p (GtpIE.concat ies).length = GtpIE.concat ies) :
    decapEnd last (decapLoop m last gtpieSize ⟨p, 0, fun _ => .unset, reads, []⟩) =
      (0, ⟨last, ies.length, pointers (starts p ies),
        reads ++ (starts p ies).flatMap fun p => [p + 1, p + 2], List.range' 0 ies.length ++ [ies.length]⟩) := by
  rw [decapLoop_eq]
  rw [elements_of_concat hn hlt hend hread, decapEnd, if_pos rfl]
  simp only [pointers, length_starts, Nat.zero_add, Nat.sub_zero, Nat.not_lt_zero, if_false, List.nil_append]

theorem gtpieGetie_eq {ie : Nat → IEEntry} {os : List Nat} {n j : Nat} (t i : UInt8)
    (h : List.Forall₂ (Holds m) os ies) (hn : ies.length < n)
    (helem : ∀ k q, os[k]? = some q → ie (j + k) = .elem q) (hnull : ie (j + ies.length) = .null) :
    ∃ found, gtpieGetie m ie t i n j = .ok found ∧
      found.map (elementAt m) = ies.find? fun e => e.t = t ∧ e.i = i := by
  induction h generalizing n j with
  | nil =>
    obtain ⟨n, rfl⟩ : ∃ n', n = n' + 1 := ⟨n - 1, (Nat.succ_pred_eq_of_pos hn).symm⟩
    have hj : ie j = .null := hnull
    exact ⟨none, by rw [gtpieGetie, hj], rfl⟩
  | @cons q e os ies hfirst hrest ih =>
    obtain ⟨n, rfl⟩ : ∃ n', n = n' + 1 := ⟨n - 1, (Nat.succ_pred_eq_of_pos (Nat.zero_lt_of_lt hn)).symm⟩
    have hj : ie j = .elem q := helem 0 q rfl
    have helt := hfirst.elementAt_eq
    have ht : m q = e.t := congrArg GtpIE.t helt
    have hi : m (q + 3) = e.i := congrArg GtpIE.i helt
    rw [gtpieGetie, hj]
    dsimp only
    rw [ht, hi]
    by_cases hmatch : e.t = t ∧ e.i = i
    · refine ⟨some q, if_pos hmatch, ?_⟩
      rw [List.find?_cons_of_pos (by simpa using hmatch), Option.map_some, helt]
    · rw [if_neg hmatch, List.find?_cons_of_neg (by simpa using hmatch)]
      refine ih (Nat.lt_of_succ_lt_succ hn) (fun k q hk => ?_) ?_
      · rw [Nat.add_assoc, Nat.add_comm 1]
        exact helem (k + 1) q hk
      · rw [Nat.add_assoc, Nat.add_comm 1]
        exact hnull

/-- What `gtp2ie_gettliv` returns for a list of elements: the value of the first one that matches. -/
def gettlivOf (ies : List GtpIE) (t i : UInt8) : Int × List UInt8 :=
  ((ies.find? fun e => e.t = t ∧ e.i = i).map fun e => ((0 : Int), e.v)).getD (eof, [])

/-- The result of a decapsulation is a list of elements: these in order and then NULL, and `gtp2ie_gettliv`
finds the first one of a type and instance. -/
structure Decoded (m : Mem) (r : Int × Decap) (ies : List GtpIE) : Prop where
  ret : r.1 = 0
  size : r.2.j = ies.length
  elem : ∀ k e, ies[k]? = some e → ∃ p, r.2.ie k = .elem p ∧ Holds m p e
  null : r.2.ie ies.length = .null
  gettliv : ∀ t i, gtp2ieGettliv m r.2.ie t i = .ok (gettlivOf ies t i)

theorem decoded_of_concat {reads : List Nat} (hn : ies.length < gtpieSize) (hlt : ∀ e ∈ ies, e.v.length < 2 ^ 16)
    (hend : p + (GtpIE.concat ies).length = last) (hread : m.read p (GtpIE.concat ies).length = GtpIE.concat ies) :
    Decoded m (decapEnd last (decapLoop m last gtpieSize ⟨p, 0, fun _ => .unset, reads, []⟩)) ies := by
  have hholds := forall₂_starts hlt hread
  have hnull : pointers (starts p ies) ies.length = .null := by
    rw [pointers, length_starts, Function.update_self]
  rw [decapEnd_of_concat (Nat.le_of_lt hn) hlt hend hread]
  refine ⟨rfl, rfl, fun k e hk => ?_, hnull, fun t i => ?_⟩
  · obtain ⟨hk', rfl⟩ := List.getElem?_eq_some_iff.mp hk
    have hstart : k < (starts p ies).length := by rwa [length_starts]
    exact ⟨_, pointers_of_getElem? (List.getElem?_eq_getElem hstart), hholds.get hstart hk'⟩
  · have helem : ∀ k q, (starts p ies)[k]? = some q → pointers (starts p ies) (0 + k) = .elem q := by
      intro k q hk
      rw [Nat.zero_add]
      exact pointers_of_getElem? hk
    have hnull' : pointers (starts p ies) (0 + ies.length) = .null := by rwa [Nat.zero_add]
    obtain ⟨found, hget, hfound⟩ := gtpieGetie_eq t i hholds hn helem hnull'
    rw [gtp2ieGettliv, hget, gettlivOf, ← hfound]
    cases found with
    | none => rfl
    | some q => rfl

/-! ## Encapsulation -/

/-- What the loop of the encapsulation leaves: the elements at `p`, the length at `off` grown by their size, and
every other octet before `p`. -/
structure Encapsulated (off : Nat) (m : Mem) (p : Nat) (ies : List GtpIE) (m' : Mem) : Prop where
  read : m'.read p (GtpIE.concat ies).length = GtpIE.concat ies
  length : ntoh16 m' off = ntoh16 m off + (GtpIE.concat ies).length
  frame : ∀ k, k < p → k ≠ off → k ≠ off + 1 → m' k = m k

/-- The loop of the encapsulation, for elements that end before `last` and a length that does not wrap. -/
theorem encapsLoop_eq {off : Nat} {members : List Mem} (hmem : List.Forall₂ (Holds · 0) members ies)
    (hoff : off + 2 ≤ p) (hlast : p + (GtpIE.concat ies).length < last)
    (hlen : ntoh16 m off + (GtpIE.concat ies).length < 2 ^ 16) :
    ∃ m', encapsLoop off last members m p = (0, m', p + (GtpIE.concat ies).length) ∧ Encapsulated off m p ies m' := by
  induction hmem generalizing m p with
  | nil => exact ⟨m, rfl, rfl, (Nat.add_zero _).symm, fun k _ _ _ => rfl⟩
  | @cons src e members ies hfirst hrest ih =>
    rw [GtpIE.concat_cons, List.length_append, GtpIE.length_octets] at hlast hlen
    have hcopy : ntoh16 (m.copy src p (4 + e.v.length)) off = ntoh16 m off := by
      rw [ntoh16, Mem.copy_of_lt _ _ _ _ _ (by omega), Mem.copy_of_lt _ _ _ _ _ (by omega), ntoh16]
    obtain ⟨m₁, hm₁⟩ :
        ∃ m₁, m₁ = hton16 (m.copy src p (4 + e.v.length)) off (ntoh16 m off + (4 + e.v.length)) := ⟨_, rfl⟩
    have hlen₁ : ntoh16 m₁ off = ntoh16 m off + (4 + e.v.length) := by
      rw [hm₁, ntoh16_hton16 (by omega)]
    obtain ⟨m', heq, henc⟩ := @ih m₁ (p + (4 + e.v.length)) (by omega) (by omega) (by omega)
    have hstep : encapsLoop off last (src :: members) m p =
        encapsLoop off last members m₁ (p + (4 + e.v.length)) := by
      rw [encapsLoop, hfirst.tlivLength_eq, if_pos (by omega)]
      dsimp only
      rw [hcopy, ← hm₁]
    -- the octets of the first element are not touched any more
    have hread : m'.read p e.octets.length = e.octets := by
      refine (Mem.read_congr fun k hk => ?_).trans hfirst.1
      rw [GtpIE.length_octets] at hk
      rw [henc.frame (p + k) (by omega) (by omega) (by omega), hm₁, hton16_of_ne (by omega) (by omega),
        Mem.copy_of_mem _ _ _ _ _ (by omega) (by omega)]
      congr 1
      omega
    refine ⟨m', ?_, ?_, ?_, ?_⟩
    · rw [hstep, heq, GtpIE.concat_cons, List.length_append, GtpIE.length_octets, Nat.add_assoc]
    · rw [GtpIE.concat_cons, List.length_append, Mem.read_add, hread, GtpIE.length_octets, henc.read]
    · rw [henc.length, hlen₁, GtpIE.concat_cons, List.length_append, GtpIE.length_octets, Nat.add_assoc]
    · intro k hk hne hne'
      rw [henc.frame k (by omega) hne hne', hm₁, hton16_of_ne hne hne', Mem.copy_of_lt _ _ _ _ _ hk]

/-- `gtp2ie_encaps_group` builds the element whose value is the concatenation. -/
theorem gtp2ieEncapsGroup_eq {members : List Mem} (t i : UInt8) (dst : Mem)
    (hmem : List.Forall₂ (Holds · 0) members ies) (hmax : (GtpIE.concat ies).length < gtpieMax) :
    (gtp2ieEncapsGroup t i dst members).1 = 0 ∧
      Holds (gtp2ieEncapsGroup t i dst members).2 0 ⟨t, i, GtpIE.concat ies⟩ := by
  unfold gtpieMax at hmax
  obtain ⟨m, hm⟩ : ∃ m, m = hton16 ((dst.set 0 t).set 3 i) 1 0 := ⟨_, rfl⟩
  have hzero : ntoh16 m 1 = 0 := by rw [hm, ntoh16_hton16 (by omega)]
  have h₀ : m 0 = t := by
    rw [hm, hton16_of_ne (by omega) (by omega), Mem.set_of_ne _ _ _ _ (by omega), Mem.set_self]
  have h₃ : m 3 = i := by rw [hm, hton16_of_ne (by omega) (by omega), Mem.set_self]
  obtain ⟨m', heq, henc⟩ :=
    @encapsLoop_eq m 4 (4 + gtpieMax) ies 1 members hmem (by omega) (by unfold gtpieMax; omega) (by omega)
  rw [gtp2ieEncapsGroup, ← hm, heq]
  refine ⟨rfl, ?_⟩
  have helt : elementAt m' 0 = ⟨t, i, GtpIE.concat ies⟩ := by
    have hlen : tlivLength m' 0 = (GtpIE.concat ies).length := by
      rw [tlivLength, henc.length, hzero, Nat.zero_add]
    rw [elementAt, henc.frame 0 (by omega) (by omega) (by omega), henc.frame 3 (by omega) (by omega) (by omega), h₀,
      h₃, hlen, henc.read]
  rw [← helt]
  exact holds_elementAt

/-! ## Messages -/

theorem getDefaultGtp_start (type : UInt8) (pack : Mem) :
    (getDefaultGtp type pack).2 = ieStart (getDefaultGtp type pack).1 := by
  have hlength : ∀ (m : Mem) (n : Nat), n < 2 ^ 16 → headerLength ((hton16 m 2 n).set 1 type) = n := by
    intro m n hn
    rw [headerLength, ntoh16, Mem.set_of_ne _ _ _ _ (by omega), Mem.set_of_ne _ _ _ _ (by omega)]
    exact ntoh16_hton16 hn
  have hflags : ∀ (m : Mem) (b : UInt8) (n : Nat), (hton16 (m.set 0 b) 2 n).set 1 type 0 = b := by
    intro m b n
    rw [Mem.set_of_ne _ _ _ _ (by omega), hton16_of_ne (by omega) (by omega), Mem.set_self]
  unfold getDefaultGtp ieStart
  dsimp only
  split
  · rw [hlength _ _ (by omega), hflags, if_pos (by decide)]
  · rw [hlength _ _ (by omega), hflags, if_neg (by decide)]

theorem le_ieStart (pack : Mem) : 8 ≤ ieStart pack := by
  unfold ieStart
  split <;> omega

/-- `gtp2ie_encaps` appends the concatenation to a packet and keeps what tells where the elements start. -/
theorem gtp2ieEncaps_eq {members : List Mem} {pack : Mem} {len : Nat}
    (hmem : List.Forall₂ (Holds · 0) members ies) (hstart : 4 ≤ len) (hmax : (GtpIE.concat ies).length < gtpieMax)
    (hlen : headerLength pack + (GtpIE.concat ies).length < 2 ^ 16) :
    ∃ pack', gtp2ieEncaps members pack len = (0, pack', len + (GtpIE.concat ies).length) ∧
      pack'.read len (GtpIE.concat ies).length = GtpIE.concat ies ∧
      headerLength pack' = headerLength pack + (GtpIE.concat ies).length ∧ ieStart pack' = ieStart pack := by
  have hbefore : ∀ k, k < len → pack.copy .zero len gtpieMax k = pack k := fun k hk =>
    Mem.copy_of_lt _ _ _ _ _ hk
  have hlength : ntoh16 (pack.copy .zero len gtpieMax) 2 = headerLength pack := by
    rw [ntoh16, hbefore 2 (by omega), hbefore 3 (by omega), headerLength, ntoh16]
  obtain ⟨pack', heq, henc⟩ := @encapsLoop_eq (pack.copy .zero len gtpieMax) len (len + gtpieMax) ies 2 members hmem
    hstart (by omega) (by omega)
  refine ⟨pack', heq, henc.read, ?_, ?_⟩
  · rw [headerLength, henc.length, hlength]
  · rw [ieStart, henc.frame 0 (by omega) (by omega) (by omega), hbefore 0 (by omega), ieStart]

/-- An element of a message: a single one, or a group of elements. -/
inductive Item
  | single (e : GtpIE)
  | group (t i : UInt8) (inner : List GtpIE)

namespace Item

/-- The element that stands in the message. -/
def flat : Item → GtpIE
  | single e => e
  | group t i inner => ⟨t, i, GtpIE.concat inner⟩

/-- The memory of an element: octets that hold it or, for a group, the result of `gtp2ie_encaps_group`. -/
def Built (m : Mem) : Item → Prop
  | single e => Holds m 0 e
  | group t i inner =>
    ∃ dst members, List.Forall₂ (Holds · 0) members inner ∧ m = (gtp2ieEncapsGroup t i dst members).2

/-- A group meets the limits that the message itself has. -/
def Fits : Item → Prop
  | single _ => True
  | group _ _ inner => inner.length ≤ 255 ∧ (GtpIE.concat inner).length < gtpieMax

theorem Built.holds {it : Item} (h : it.Built m) (hfits : it.Fits) : Holds m 0 it.flat := by
  cases it with
  | single e => exact h
  | group t i inner =>
    obtain ⟨dst, members, hmem, rfl⟩ := h
    exact (gtp2ieEncapsGroup_eq t i dst hmem hfits.2).2

end Item

theorem holds_of_built {members : List Mem} {items : List Item} (h : List.Forall₂ Item.Built members items)
    (hfits : ∀ it ∈ items, it.Fits) : List.Forall₂ (Holds · 0) members (items.map Item.flat) := by
  induction h with
  | nil => exact .nil
  | cons hfirst hrest ih =>
    obtain ⟨hfit, hfits⟩ := List.forall_mem_cons.mp hfits
    exact .cons (hfirst.holds hfit) (ih hfits)

theorem length_of_holds {members : List Mem} (h : List.Forall₂ (Holds · 0) members ies) :
    ∀ e ∈ ies, e.v.length < 2 ^ 16 := by
  induction h with
  | nil => nofun
  | cons hfirst _ ih => exact List.forall_mem_cons.mpr ⟨hfirst.2, ih⟩

/-- A message of at most 255 elements, some of which may be groups, is encapsulated and read back as it
was, and so is every group in it. -/
theorem gtp2ie_encaps_decap (type : UInt8) (pack : Mem) {members : List Mem} {items : List Item}
    (hbuilt : List.Forall₂ Item.Built members items) (hfits : ∀ it ∈ items, it.Fits) (hn : items.length ≤ 255)
    (hmax : (GtpIE.concat (items.map Item.flat)).length < gtpieMax)
    (hlen : headerLength (getDefaultGtp type pack).1 + (GtpIE.concat (items.map Item.flat)).length < 2 ^ 16) :
    let d := getDefaultGtp type pack
    let size := (GtpIE.concat (items.map Item.flat)).length
    let r := gtp2ieEncaps members d.1 d.2
    r.1 = 0 ∧ r.2.2 = d.2 + size ∧ headerLength r.2.1 = headerLength d.1 + size ∧
      Decoded r.2.1 (gtp2ieDecap r.2.1 r.2.2) (items.map Item.flat) ∧
      ∀ t i inner, Item.group t i inner ∈ items →
        (∀ dst inners, List.Forall₂ (Holds · 0) inners inner → (gtp2ieEncapsGroup t i dst inners).1 = 0) ∧
        ∀ value : Mem, value.read 0 (GtpIE.concat inner).length = GtpIE.concat inner →
          Decoded value (gtp2ieDecapsGroup value (GtpIE.concat inner).length) inner := by
  have hmem := holds_of_built hbuilt hfits
  have hdefault := getDefaultGtp_start type pack
  have hstart := le_ieStart (getDefaultGtp type pack).1
  obtain ⟨pack', heq, hread, hheader, hkeep⟩ :=
    @gtp2ieEncaps_eq _ members (getDefaultGtp type pack).1 (getDefaultGtp type pack).2 hmem (by omega) hmax hlen
  intro d size r
  have hr : r = (0, pack', d.2 + size) := heq
  rw [hr]
  refine ⟨rfl, rfl, hheader, ?_, ?_⟩
  · have hpack : ieStart pack' = d.2 := by rw [hkeep, hdefault]
    rw [gtp2ieDecap, hpack]
    refine decoded_of_concat ?_ (length_of_holds hmem) rfl hread
    rw [List.length_map]
    exact Nat.lt_succ_of_le hn
  · intro t i inner hgroup
    have hfit : inner.length ≤ 255 ∧ (GtpIE.concat inner).length < gtpieMax := hfits _ hgroup
    refine ⟨fun dst inners hinner => (gtp2ieEncapsGroup_eq t i dst hinner hfit.2).1, fun value hvalue => ?_⟩
    obtain ⟨k, hget⟩ := List.get_of_mem hgroup
    have hsrc := hbuilt.get (by rw [hbuilt.length_eq]; exact k.2) k.2
    rw [hget] at hsrc
    obtain ⟨dst, inners, hinner, -⟩ := hsrc
    exact decoded_of_concat (Nat.lt_succ_of_le hfit.1) (length_of_holds hinner) (Nat.zero_add _) hvalue

/-- A Create Session Request with a recovery counter and a bearer context that holds a bearer identity. -/
theorem gtp2ie_encaps_decap_bearerContext :
    let group := (gtp2ieEncapsGroup 93 0 .zero [.ofList [73, 0, 1, 0, 5]]).2
    let d := getDefaultGtp 32 .zero
    let r := gtp2ieEncaps [.ofList [3, 0, 1, 0, 7], group] d.1 d.2
    r.1 = 0 ∧ r.2.2 = d.2 + 14 ∧ headerLength r.2.1 = headerLength d.1 + 14 ∧
      Decoded r.2.1 (gtp2ieDecap r.2.1 r.2.2) [⟨3, 0, [7]⟩, ⟨93, 0, [73, 0, 1, 0, 5]⟩] ∧
      Decoded (.ofList [73, 0, 1, 0, 5]) (gtp2ieDecapsGroup (.ofList [73, 0, 1, 0, 5]) 5) [⟨73, 0, [5]⟩] := by
  have hrecovery : Holds (.ofList [3, 0, 1, 0, 7]) 0 ⟨3, 0, [7]⟩ := ⟨by decide, by decide⟩
  have hebi : Holds (.ofList [73, 0, 1, 0, 5]) 0 ⟨73, 0, [5]⟩ := ⟨by decide, by decide⟩
  have hbuilt : List.Forall₂ Item.Built
      [.ofList [3, 0, 1, 0, 7], (gtp2ieEncapsGroup 93 0 .zero [.ofList [73, 0, 1, 0, 5]]).2]
      [.single ⟨3, 0, [7]⟩, .group 93 0 [⟨73, 0, [5]⟩]] :=
    .cons hrecovery (.cons ⟨.zero, [.ofList [73, 0, 1, 0, 5]], .cons hebi .nil, rfl⟩ .nil)
  have hfits : ∀ it ∈ [Item.single ⟨3, 0, [7]⟩, Item.group 93 0 [⟨73, 0, [5]⟩]], it.Fits :=
    List.forall_mem_cons.mpr ⟨trivial, List.forall_mem_cons.mpr ⟨⟨by decide, by decide⟩, nofun⟩⟩
  have hroundTrip := gtp2ie_encaps_decap 32 .zero hbuilt hfits (by decide) (by decide) (by decide)
  have hsize : (GtpIE.concat ([Item.single ⟨3, 0, [7]⟩, .group 93 0 [⟨73, 0, [5]⟩]].map Item.flat)).length = 14 := by
    decide
  dsimp only at hroundTrip ⊢
  rw [hsize] at hroundTrip
  obtain ⟨hret, hlen, hheader, hdecoded, hgroup⟩ := hroundTrip
  exact ⟨hret, hlen, hheader, hdecoded, (hgroup 93 0 [⟨73, 0, [5]⟩] (by simp)).2 _ (by decide)⟩

end AaltoMME.GTP
