import Mathlib.Data.List.Basic
import AaltoMME.Base.Memory

/-!
# Access point names

`subs_getEncodedAPN` copies the name behind one free octet and then turns it, in place, into labels with their
lengths in front: each dot becomes the octet before the next label, where the length of that label is written
when the label ends.
-/

namespace AaltoMME

def dot : UInt8 := 0x2E

namespace EMMCtx

/-- The loop of `subs_getEncodedAPN` for at most `rounds` rounds.  The index and the length of the label have
8 bits; `res` starts at the second octet of the buffer. -/
def encodeLabels (len maxLen : Nat) : Nat → UInt8 → UInt8 → List UInt8 → UInt8 × UInt8 × List UInt8
  | 0, i, labelLen, buffer => (i, labelLen, buffer)
  | rounds + 1, i, labelLen, buffer =>
    if i.toNat < len ∧ i.toNat < maxLen then
      if buffer.getD (i.toNat + 1) 0 = dot then
        encodeLabels len maxLen rounds (i + 1) 0 (buffer.set (i.toNat - labelLen.toNat) labelLen)
      else encodeLabels len maxLen rounds (i + 1) (labelLen + 1) buffer
    else (i, labelLen, buffer)

/-- `subs_getEncodedAPN`, for a `maxLen` of 8 bits: with a larger one the index would never pass it. -/
def subsGetEncodedAPN (apn : List UInt8) (maxLen : Nat) : List UInt8 :=
  let (i, labelLen, buffer) := encodeLabels apn.length maxLen maxLen 0 0 (0 :: apn)
  buffer.set (i.toNat - labelLen.toNat) labelLen

end EMMCtx

/-! ## Labels -/

/-- Each label after its length. -/
def labelOctets (labels : List (List UInt8)) : List UInt8 := labels.flatMap fun l => UInt8.ofNat l.length :: l

/-- The labels of a buffer of which `left` octets of the label `label` are still to come. -/
def readLabels : List UInt8 → Nat → List UInt8 → Option (List (List UInt8))
  | [], 0, label => some [label]
  | [], _ + 1, _ => none
  | n :: octets, 0, label => (readLabels octets n.toNat []).map (label :: ·)
  | x :: octets, left + 1, label => readLabels octets left (label ++ [x])

/-- The name that a buffer of labels stands for. -/
def decodeAPN : List UInt8 → Option (List UInt8)
  | [] => none
  | n :: octets => (readLabels octets n.toNat []).map [dot].intercalate

theorem readLabels_append (l octets label : List UInt8) :
    readLabels (l ++ octets) l.length label = readLabels octets 0 (label ++ l) := by
  induction l generalizing label with
  | nil => simp
  | cons x l ih => simp [readLabels, ih]

/-- Lengths of 8 bits suffice to read the labels back. -/
theorem readLabels_labelOctets {label : List UInt8} {labels : List (List UInt8)}
    (h : ∀ l ∈ labels, l.length < 256) : readLabels (labelOctets labels) 0 label = some (label :: labels) := by
  induction labels generalizing label with
  | nil => rfl
  | cons l labels ih =>
    have hl : (UInt8.ofNat l.length).toNat = l.length := Nat.mod_eq_of_lt (h l List.mem_cons_self)
    have htail : readLabels (labelOctets labels) 0 l = some (l :: labels) :=
      ih fun m hm => h m (List.mem_cons_of_mem l hm)
    simp only [labelOctets, List.flatMap_cons, List.cons_append, readLabels, hl]
    rw [readLabels_append, List.nil_append, ← labelOctets, htail, Option.map_some]

theorem decodeAPN_labelOctets {labels : List (List UInt8)} (hne : labels ≠ []) (h : ∀ l ∈ labels, l.length < 256) :
    decodeAPN (labelOctets labels) = some ([dot].intercalate labels) := by
  cases labels with
  | nil => exact absurd rfl hne
  | cons l labels =>
    have hl : (UInt8.ofNat l.length).toNat = l.length := Nat.mod_eq_of_lt (h l List.mem_cons_self)
    have htail : readLabels (labelOctets labels) 0 l = some (l :: labels) :=
      readLabels_labelOctets fun m hm => h m (List.mem_cons_of_mem l hm)
    simp only [labelOctets, List.flatMap_cons, List.cons_append, decodeAPN, hl]
    rw [readLabels_append, List.nil_append, ← labelOctets, htail, Option.map_some]

theorem splitOn_append_dot {cur rest : List UInt8} (h : dot ∉ cur) :
    (cur ++ dot :: rest).splitOn dot = cur :: rest.splitOn dot := by
  refine List.splitOnP_append_cons_of_forall_mem (p := (· == dot)) ?_ dot (beq_self_eq_true dot) rest
  intro x hx
  exact beq_eq_false_iff_ne.mpr fun hd => h (hd ▸ hx)

theorem length_le_intercalate {l : List UInt8} {labels : List (List UInt8)} (h : l ∈ labels) :
    l.length ≤ ([dot].intercalate labels).length := by
  induction labels with
  | nil => cases h
  | cons m labels ih =>
    by_cases hne : labels = []
    · subst hne
      rw [List.mem_singleton.mp h]
      simp [List.intercalate]
    rw [List.intercalate_cons_of_ne_nil hne]
    simp only [List.length_append]
    rcases List.mem_cons.mp h with rfl | h
    · omega
    · have := ih h
      omega

theorem length_le_of_mem_splitOn {l apn : List UInt8} (h : l ∈ apn.splitOn dot) : l.length ≤ apn.length := by
  have hle := length_le_intercalate h
  rwa [List.intercalate_splitOn] at hle

/-! ## The loop -/

namespace EMMCtx

theorem set_free {pre y : List UInt8} {x i labelLen : UInt8} {n : Nat} (hlabel : labelLen.toNat = n)
    (hi : i.toNat = pre.length + n) :
    (pre ++ x :: y).set (i.toNat - labelLen.toNat) labelLen = pre ++ UInt8.ofNat n :: y := by
  have hpos : i.toNat - labelLen.toNat = pre.length := by omega
  have hoct : UInt8.ofNat n = labelLen := by rw [← hlabel, UInt8.ofNat_toNat]
  rw [hpos, hoct, List.set_append_right _ _ (Nat.le_refl _), Nat.sub_self, List.set_cons_zero]

theorem getD_next {pre cur rest : List UInt8} {x y : UInt8} {n : Nat} (hn : n = pre.length + cur.length) :
    (pre ++ x :: (cur ++ y :: rest)).getD (n + 1) 0 = y := by
  have hsplit : pre ++ x :: (cur ++ y :: rest) = (pre ++ x :: cur) ++ y :: rest := by simp
  have hpos : n + 1 = (pre ++ x :: cur).length := by simp [hn]; omega
  rw [hsplit, hpos, List.getD, List.getElem?_append_right (Nat.le_refl _), Nat.sub_self, List.getElem?_cons_zero,
    Option.getD_some]

/-- Between two rounds the buffer has the labels that ended, an octet for the next length, the label so far and the
rest of the name. -/
theorem encodeLabels_eq (pre cur : List UInt8) {apn rest : List UInt8} {x i labelLen : UInt8} {rounds : Nat}
    (hlen : apn.length ≤ 149) (hcur : dot ∉ cur) (hlabel : labelLen.toNat = cur.length)
    (hi : i.toNat = pre.length + cur.length) (happ : apn.length = i.toNat + rest.length)
    (hrounds : rest.length < rounds) {j l : UInt8} {buffer : List UInt8}
    (h : encodeLabels apn.length 150 rounds i labelLen (pre ++ x :: (cur ++ rest)) = (j, l, buffer)) :
    buffer.set (j.toNat - l.toNat) l = pre ++ labelOctets ((cur ++ rest).splitOn dot) := by
  induction rest generalizing pre cur x i labelLen rounds with
  | nil =>
    obtain ⟨rounds, rfl⟩ := Nat.exists_eq_succ_of_ne_zero (Nat.ne_zero_of_lt hrounds)
    rw [encodeLabels, if_neg (by simp only [List.length_nil] at happ; omega)] at h
    obtain ⟨rfl, rfl, rfl⟩ : i = j ∧ labelLen = l ∧ _ = buffer := by simpa using h
    rw [List.append_nil, set_free hlabel hi, List.splitOn_eq_singleton hcur, labelOctets, List.flatMap_singleton]
  | cons y rest ih =>
    obtain ⟨rounds, rfl⟩ := Nat.exists_eq_succ_of_ne_zero (Nat.ne_zero_of_lt hrounds)
    simp only [List.length_cons] at happ hrounds
    have hnext : (i + 1).toNat = i.toNat + 1 := by
      exact Nat.mod_eq_of_lt (by simp; omega)
    rw [encodeLabels, if_pos (by omega), getD_next hi] at h
    split at h
    · -- the label ends, and the dot is the free octet of the next one
      rename_i hy
      subst hy
      rw [set_free hlabel hi] at h
      have hpre : pre ++ UInt8.ofNat cur.length :: (cur ++ dot :: rest) =
          (pre ++ UInt8.ofNat cur.length :: cur) ++ dot :: ([] ++ rest) := by simp
      rw [hpre] at h
      rw [ih _ _ List.not_mem_nil rfl ?_ ?_ ?_ h, splitOn_append_dot hcur]
      · simp [labelOctets]
      · simp [hnext]
        omega
      · omega
      · omega
    · rename_i hy
      have hlabel' : (labelLen + 1).toNat = (cur ++ [y]).length := by
        rw [UInt8.toNat_add, List.length_append, hlabel]
        exact Nat.mod_eq_of_lt (by simp; omega)
      have happend : cur ++ y :: rest = (cur ++ [y]) ++ rest := by simp
      rw [happend] at h ⊢
      refine ih _ _ ?_ hlabel' ?_ ?_ ?_ h
      · simp only [List.mem_append, List.mem_singleton, not_or]
        exact ⟨hcur, fun hd => hy hd.symm⟩
      · rw [List.length_append, List.length_singleton]
        omega
      · omega
      · omega

theorem length_encodeLabels {len maxLen rounds : Nat} {i labelLen : UInt8} {buffer : List UInt8} :
    (encodeLabels len maxLen rounds i labelLen buffer).2.2.length = buffer.length := by
  induction rounds generalizing i labelLen buffer with
  | zero => rfl
  | succ rounds ih =>
    unfold encodeLabels
    split
    · split
      · rw [ih, List.length_set]
      · exact ih
    · rfl

theorem length_subsGetEncodedAPN (apn : List UInt8) (maxLen : Nat) :
    (subsGetEncodedAPN apn maxLen).length = apn.length + 1 := by
  simp [subsGetEncodedAPN, length_encodeLabels]

/-- The encoded name is the labels with their lengths, and it decodes to the name. -/
theorem subsGetEncodedAPN_labels {apn : List UInt8} (h : apn.length ≤ 149) :
    subsGetEncodedAPN apn 150 = labelOctets (apn.splitOn dot) ∧
      (subsGetEncodedAPN apn 150).length = apn.length + 1 ∧ decodeAPN (subsGetEncodedAPN apn 150) = some apn := by
  have hlabels : subsGetEncodedAPN apn 150 = labelOctets (apn.splitOn dot) := by
    obtain ⟨⟨j, l, buffer⟩, hr⟩ : ∃ r, encodeLabels apn.length 150 150 0 0 (0 :: apn) = r := ⟨_, rfl⟩
    have hloop := encodeLabels_eq [] [] h List.not_mem_nil rfl rfl (by simp) (by omega) hr
    rw [subsGetEncodedAPN, hr]
    exact hloop
  refine ⟨hlabels, length_subsGetEncodedAPN apn 150, ?_⟩
  · rw [hlabels, decodeAPN_labelOctets, List.intercalate_splitOn]
    · exact List.splitOnP_ne_nil _ _
    · intro l hl
      have := length_le_of_mem_splitOn hl
      omega

/-- A name with an empty label. -/
theorem subsGetEncodedAPN_empty_label : subsGetEncodedAPN [0x61, dot, dot, 0x62] 150 = [1, 0x61, 0, 1, 0x62] ∧
    decodeAPN (subsGetEncodedAPN [0x61, dot, dot, 0x62] 150) = some [0x61, dot, dot, 0x62] :=
  ⟨(subsGetEncodedAPN_labels (by decide)).1.trans (by decide), (subsGetEncodedAPN_labels (by decide)).2.2⟩

end EMMCtx

end AaltoMME
