import AaltoMME.S1AP.Message

/-!
# Lists of items

The macros `SEQ_OF_CONTAINER_FUNC`, `SEQ_OF_CONTAINER_ENC` and `SEQ_OF_CONTAINER_DEC` make a list type with a bound on
the number of its items.  The items are IEs on their own.  The function that adds an item stops one item before the
bound, and the size of the list is a `uint8_t`.
-/

namespace AaltoMME.S1AP

open Base PER

variable {V : Type}

/-- `list_name##_addItem`. -/
def addItem (maxItems : Nat) (c : List V) (item : V) : Outcome (List V) :=
  if c.length + 1 = maxItems then .ok c
  -- `size` wraps around: `realloc` to no octets frees the items, and so does the branch for its result
  else if c.length = 255 then .error .useAfterFree
  else .ok (c ++ [item])

/-- `enc_##list_name`.  No item of a list of the MME is without a value. -/
def encList (codecs : Codecs V) (maxItems : Nat) (bytes : BinaryData) (item : List (ProtocolIE (Option V))) :
    BinaryData :=
  let bytes := encodeConstrainedNumber bytes item.length 1 maxItems
  item.foldl (fun bytes ie => ie.value.elim bytes fun v => encProtocolIEs codecs bytes ⟨ie.id, ie.criticality, v⟩) bytes

section Decoders

variable (codecs : Codecs V) (junk : BinaryData → Mem) (maxItems : Nat)

/-- The loop of `dec_##list_name`. -/
def decItems : Nat → List (ProtocolIE (Option V)) → Decoder (List (ProtocolIE (Option V)))
  | 0, c => return c
  | n + 1, c => do
    let ie ← decProtocolIEs codecs junk
    let c ← liftM (addItem maxItems c ie)
    decItems n c

/-- `dec_##list_name`, with the length in a `uint8_t`. -/
def decList : Decoder (List (ProtocolIE (Option V))) := do
  let length ← decodeConstrainedNumber 1 maxItems
  decItems codecs junk maxItems (length % 256) []

end Decoders

variable {codecs : Codecs V} {maxItems : Nat} {ies : List (ProtocolIE V)}

/-! ## Adding -/

theorem addItem_of_lt {c : List V} (h : c.length + 1 < maxItems) (hsize : c.length < 255) (item : V) :
    addItem maxItems c item = .ok (c ++ [item]) := by
  rw [addItem, if_neg (by omega), if_neg (by omega)]

/-- Items are added in their order as long as there is room. -/
theorem foldlM_addItem {c l : List V} (h : c.length + l.length < maxItems) (hsize : c.length + l.length < 256) :
    l.foldlM (addItem maxItems) c = .ok (c ++ l) := by
  induction l generalizing c with
  | nil => rw [List.append_nil]; rfl
  | cons x l ih =>
    rw [List.length_cons] at h hsize
    have hlen : (c ++ [x]).length = c.length + 1 := List.length_append
    rw [List.foldlM_cons, addItem_of_lt (by omega) (by omega), ok_bind, ih (by omega) (by omega), List.append_assoc,
      List.singleton_append]

/-- A list never has as many items as its bound, and never more than a `uint8_t` counts. -/
theorem post_foldlM_addItem {c : List V} (h : c.length < maxItems) (hsize : c.length < 256) (l : List V) :
    Post (l.foldlM (addItem maxItems) c) fun c' => c'.length < maxItems ∧ c'.length < 256 := by
  refine Post.foldlM (I := fun c : List V => c.length < maxItems ∧ c.length < 256) (fun c item hc => ?_) l ⟨h, hsize⟩
  unfold addItem
  split_ifs
  · exact .ok hc
  · exact .error
  · have hlen : (c ++ [item]).length = c.length + 1 := List.length_append
    exact .ok ⟨by omega, by omega⟩

/-! ## Coding -/

def listFormat (codecs : Codecs V) (maxItems : Nat) (ies : List (ProtocolIE V)) : BitFormat :=
  (numberFormat ies.length 1 maxItems).seq (.concat (ies.map codecs.ieFormat))

theorem encodes_encList (maxItems : Nat) (h : ∀ ie ∈ ies, codecs.RoundTrips ie) :
    Encodes (encList codecs maxItems · (ies.map (·.decoded))) (listFormat codecs maxItems ies) := by
  have hies := Encodes.foldl
    fun ie hie => encodes_encProtocolIEs (h ie hie)
  have hall := (encodes_encodeConstrainedNumber ies.length 1 maxItems).seq hies
  simp only [encList, List.length_map, List.foldl_map]
  exact hall

theorem decodes_decItems (junk : BinaryData → Mem) {c : List (ProtocolIE (Option V))}
    (h : ∀ ie ∈ ies, codecs.RoundTrips ie) (hsize : c.length + ies.length < min maxItems 256) :
    Decodes (decItems codecs junk maxItems ies.length c) (c ++ ies.map (·.decoded))
      (.concat (ies.map codecs.ieFormat)) := by
  refine Decodes.iterate
    (fun _ => rfl) (fun _ _ => (bind_assoc ..).symm) (fun ie hie c hlt => ?_) hsize
  have hadd : (liftM (addItem maxItems c ie.decoded) : Decoder _) = pure (c ++ [ie.decoded]) := by
    rw [addItem_of_lt (by omega) (by omega)]
    rfl
  have hitem := (decodes_decProtocolIEs junk (h ie hie)).bind (k := fun ie => liftM (addItem maxItems c ie))
    (hadd ▸ Decodes.pure (c ++ [ie.decoded]))
  rwa [BitFormat.seq_nil] at hitem

theorem decodes_decList (junk : BinaryData → Mem) (h : ∀ ie ∈ ies, codecs.RoundTrips ie) (hpos : ies ≠ [])
    (hmax : maxItems ≤ 65535) (hlt : ies.length < maxItems) (hsize : ies.length < 256) :
    Decodes (decList codecs junk maxItems) (ies.map (·.decoded)) (listFormat codecs maxItems ies) := by
  have hnum := decodes_decodeConstrainedNumber (List.length_pos_iff.mpr hpos) hlt.le (by omega) (.inl (by omega))
  refine hnum.bind ?_
  rw [Nat.mod_eq_of_lt hsize]
  exact decodes_decItems junk h (by rw [List.length_nil]; omega)

/-- The items are all in the list that they are added to, and come back when it is encoded at any position, in their
order. -/
def ListRoundTrips (codecs : Codecs V) (maxItems : Nat) (ies : List (ProtocolIE V)) : Prop :=
  (ies.map (·.decoded)).foldlM (addItem maxItems) [] = .ok (ies.map (·.decoded)) ∧
    ∀ junk, Decodes.ReadsBack (encList codecs maxItems · (ies.map (·.decoded))) (decList codecs junk maxItems)
      (ies.map (·.decoded))

/-- **Lists of items.** For every bound that the source has for a list and every number of items up to the bound: the
items are kept and come back in their order, if and only if they are fewer than the bound and fewer than 256. -/
theorem list_roundTrips_iff (h : ∀ ie ∈ ies, codecs.RoundTrips ie) (hpos : ies ≠ []) (hmax : maxItems ≤ 65535)
    (hle : ies.length ≤ maxItems) :
    ListRoundTrips codecs maxItems ies ↔ ies.length < maxItems ∧ ies.length < 256 := by
  have hlen := List.length_pos_iff.mpr hpos
  constructor
  · rintro ⟨hadd, -⟩
    have hkept := post_foldlM_addItem (c := []) (by rw [List.length_nil]; omega) (Nat.zero_lt_succ 255) _ _ hadd
    simpa using hkept
  · rintro ⟨hlt, hsize⟩
    exact ⟨foldlM_addItem (by simpa using hlt) (by simpa using hsize), fun junk =>
      (decodes_decList junk h hpos hmax hlt hsize).readsBack (encodes_encList maxItems h)⟩

/-- The number of E-RABs that fit a list. -/
def maxNrOfERABs : Nat := 256

/-- A list of two ids. -/
theorem list_roundTrips_pair : ListRoundTrips ueIdCodecs maxNrOfERABs [⟨0, 0, 1⟩, ⟨8, 0, 70000⟩] :=
  (list_roundTrips_iff frames_ueContextRelease.ies (by decide) (by decide) (by decide)).mpr (by decide)

/-- The last one of 256 items is not added. -/
theorem not_list_roundTrips : (∀ ie ∈ List.replicate 256 ⟨0, 0, 1⟩, ueIdCodecs.RoundTrips ie) ∧
    ¬ ListRoundTrips ueIdCodecs maxNrOfERABs (List.replicate 256 ⟨0, 0, 1⟩) := by
  refine ⟨fun ie hie => ?_, fun h => ?_⟩
  · rw [List.eq_of_mem_replicate hie]
    exact frames_ueContextRelease.ies _ List.mem_cons_self
  · have hkept := (post_foldlM_addItem (by decide) (by decide) _ _ h.1).1
    rw [List.length_map, List.length_replicate] at hkept
    exact lt_irrefl 256 hkept

end AaltoMME.S1AP
