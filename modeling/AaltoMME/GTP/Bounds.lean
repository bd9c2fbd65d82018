import AaltoMME.GTP.RoundTrip

/-!
# Decapsulation of arbitrary octets

`gtp2ie_decap` and `gtp2ie_decaps_group` compare the end of an element with the end of the packet only after
they have passed it, and they store NULL only if the last element ends with the packet.
-/

namespace AaltoMME.GTP

open Base

variable {m : Mem} {p last : Nat} {ies : List GtpIE}

/-- A decapsulation of the octets from `start` to `len` stays inside: the octets that it reads, the entries of the
array that it writes and the elements that `gtp2ie_gettliv` finds afterwards; and it tells by its return value
whether the octets are a concatenation of elements. -/
structure Bounded (m : Mem) (start len : Nat) (r : Int × Decap) : Prop where
  reads : ∀ k ∈ r.2.reads, k < len
  writes : ∀ k ∈ r.2.writes, k < gtpieSize
  ret : r.1 = 0 ↔ IsConcat m start len
  terminated : ∃ n < gtpieSize, r.2.ie n = .null ∧
    ∀ k < n, ∃ q, r.2.ie k = .elem q ∧ q + (4 + tlivLength m q) ≤ len
  gettliv : ∀ t i, ∃ found, gtpieGetie m r.2.ie t i gtpieSize 0 = .ok found ∧
    ∀ q, found = some q → q + (4 + tlivLength m q) ≤ len

theorem le_of_mem_starts (hlt : ∀ e ∈ ies, e.v.length < 2 ^ 16)
    (hread : m.read p (GtpIE.concat ies).length = GtpIE.concat ies) {q : Nat} (hq : q ∈ starts p ies) :
    q + (4 + tlivLength m q) ≤ p + (GtpIE.concat ies).length := by
  induction ies generalizing p with
  | nil => nomatch hq
  | cons e ies ih =>
    obtain ⟨hfirst, hrest⟩ := holds_of_concat hlt hread
    rw [GtpIE.concat_cons, List.length_append, GtpIE.length_octets]
    rcases List.mem_cons.mp hq with rfl | hq
    · rw [hfirst.tlivLength_eq]
      omega
    · have hle := ih (fun f hf => hlt f (List.mem_cons_of_mem _ hf)) hrest hq
      omega

/-- A search in an array that ends with NULL finds one of the elements before. -/
theorem gtpieGetie_of_null {ie : Nat → IEEntry} {Q : Nat → Prop} (t i : UInt8) {n : Nat} (fuel j : Nat)
    (hn : n < fuel) (hnull : ie (j + n) = .null) (helem : ∀ k < n, ∃ q, ie (j + k) = .elem q ∧ Q q) :
    ∃ found, gtpieGetie m ie t i fuel j = .ok found ∧ ∀ q, found = some q → Q q := by
  induction fuel generalizing j n with
  | zero => exact absurd hn (Nat.not_lt_zero n)
  | succ fuel ih =>
    cases n with
    | zero =>
      have hj : ie j = .null := hnull
      exact ⟨none, by rw [gtpieGetie, hj], nofun⟩
    | succ n =>
      obtain ⟨q, hj, hq⟩ := helem 0 (Nat.succ_pos n)
      rw [Nat.add_zero] at hj
      rw [gtpieGetie, hj]
      dsimp only
      split
      · exact ⟨some q, rfl, fun q' h => Option.some.inj h ▸ hq⟩
      · refine ih (j + 1) (Nat.lt_of_succ_lt_succ hn) ?_ fun k hk => ?_
        · rw [Nat.add_assoc, Nat.add_comm 1]
          exact hnull
        · rw [Nat.add_assoc, Nat.add_comm 1]
          exact helem (k + 1) (Nat.succ_lt_succ hk)

theorem bounded_of_isConcat {reads : List Nat} (hreads : ∀ k ∈ reads, k < last) (h : IsConcat m p last) :
    Bounded m p last (decapEnd last (decapLoop m last gtpieSize ⟨p, 0, fun _ => .unset, reads, []⟩)) := by
  have hconcat := h
  obtain ⟨ies, hn, hlt, hend, hread⟩ := h
  have hinside : ∀ q ∈ starts p ies, q + (4 + tlivLength m q) ≤ last := fun q hq =>
    hend ▸ le_of_mem_starts hlt hread hq
  have hnull : pointers (starts p ies) ies.length = .null := by
    rw [pointers, length_starts, Function.update_self]
  have helem : ∀ k < ies.length, ∃ q, pointers (starts p ies) k = .elem q ∧ q + (4 + tlivLength m q) ≤ last := by
    intro k hk
    have hk' : k < (starts p ies).length := by rwa [length_starts]
    exact ⟨_, pointers_of_getElem? (List.getElem?_eq_getElem hk'), hinside _ (List.getElem_mem hk')⟩
  rw [decapEnd_of_concat (Nat.le_of_lt hn) hlt hend hread]
  refine ⟨?_, ?_, iff_of_true rfl hconcat, ⟨ies.length, hn, hnull, helem⟩, fun t i => ?_⟩
  · intro k hk
    rcases List.mem_append.mp hk with hk | hk
    · exact hreads k hk
    · obtain ⟨q, hq, hk⟩ := List.mem_flatMap.mp hk
      have hle := hinside q hq
      rcases List.mem_pair.mp hk with rfl | rfl <;> omega
  · intro k hk
    rcases List.mem_append.mp hk with hk | hk
    · obtain ⟨-, hk⟩ := List.mem_range'_1.mp hk
      omega
    · obtain rfl := List.mem_singleton.mp hk
      exact hn
  · refine gtpieGetie_of_null t i gtpieSize 0 hn ?_ fun k hk => ?_
    · rwa [Nat.zero_add]
    · rw [Nat.zero_add]
      exact helem k hk

/-- A decapsulation that stays inside has read a concatenation: otherwise NULL was not stored, or it was stored
behind the array. -/
theorem isConcat_of_bounded {reads : List Nat}
    (h : Bounded m p last (decapEnd last (decapLoop m last gtpieSize ⟨p, 0, fun _ => .unset, reads, []⟩))) :
    IsConcat m p last := by
  have hwrites := h.writes
  obtain ⟨n, -, hnull, -⟩ := h.terminated
  rw [decapLoop_eq, decapEnd] at hwrites hnull
  split at hnull
  · rename_i hend
    obtain ⟨ies, hstarts, hlt, hlen, hread⟩ := concat_of_elements gtpieSize hend
    refine ⟨ies, ?_, hlt, hlen, hread⟩
    rw [if_pos hend] at hwrites
    have hsize := hwrites (0 + (elements m last gtpieSize p).1.length) (by simp)
    rwa [Nat.zero_add, hstarts, length_starts] at hsize
  · dsimp only at hnull
    cases hget : (elements m last gtpieSize p).1[n - 0]? with
    | none => rw [hget] at hnull; cases hnull
    | some q => rw [hget] at hnull; cases hnull

/-- Both functions stay inside what they are given exactly if this is a concatenation of fewer than `GTPIE_SIZE`
elements. -/
theorem gtp2ieDecap_bounded_iff (pack : Mem) (len : Nat) :
    (12 ≤ len → (Bounded pack (ieStart pack) len (gtp2ieDecap pack len) ↔ IsConcat pack (ieStart pack) len)) ∧
      (Bounded pack 0 len (gtp2ieDecapsGroup pack len) ↔ IsConcat pack 0 len) := by
  refine ⟨fun hlen => ⟨isConcat_of_bounded, fun h => ?_⟩, isConcat_of_bounded, fun h => ?_⟩
  · refine bounded_of_isConcat (fun k hk => ?_) h
    obtain rfl := List.mem_singleton.mp hk
    omega
  · exact bounded_of_isConcat nofun h

theorem gtp2ieDecap_bounded_recovery :
    Bounded (.ofList [0x48, 33, 0, 13, 0, 0, 0, 1, 0, 0, 1, 0, 3, 0, 1, 0, 7]) 12 17
      (gtp2ieDecap (.ofList [0x48, 33, 0, 13, 0, 0, 0, 1, 0, 0, 1, 0, 3, 0, 1, 0, 7]) 17) :=
  ((gtp2ieDecap_bounded_iff (.ofList [0x48, 33, 0, 13, 0, 0, 0, 1, 0, 0, 1, 0, 3, 0, 1, 0, 7]) 17).1 (by decide)).mpr
    ⟨[⟨3, 0, [7]⟩], by decide, by decide, by decide, by decide⟩

/-- A packet that ends inside the header of an element is read past its end and leaves the array without NULL; 256
elements fill the array, and NULL is stored behind it with the return value of success. -/
theorem gtp2ieDecap_not_bounded :
    let short : Mem := .ofList [0x48, 33, 0, 9, 0, 0, 0, 1, 0, 0, 1, 0, 3]
    let elements := GtpIE.concat (List.replicate 256 ⟨1, 0, []⟩)
    let full : Mem := .ofList ([0x48, 33, 4, 8, 0, 0, 0, 1, 0, 0, 1, 0] ++ elements)
    ¬ Bounded short (ieStart short) 13 (gtp2ieDecap short 13) ∧
      (gtp2ieDecap full (12 + elements.length)).1 = 0 ∧ 256 ∈ (gtp2ieDecap full (12 + elements.length)).2.writes := by
  intro short elements full
  refine ⟨fun h => ?_, ?_⟩
  · exact absurd (h.reads 13 (by decide)) (by decide)
  · have hread : full.read 12 elements.length = elements := by
      rw [Mem.ofList_read _ _ _ (by rw [List.length_append]; exact Nat.le_refl _)]
      exact List.take_length
    have hstart : ieStart full = 12 := by decide
    have hlt : ∀ e ∈ List.replicate 256 (⟨1, 0, []⟩ : GtpIE), e.v.length < 2 ^ 16 := by
      intro e he
      rw [List.eq_of_mem_replicate he]
      exact Nat.two_pow_pos 16
    have hdecap := @decapEnd_of_concat full 12 (12 + elements.length) (List.replicate 256 ⟨1, 0, []⟩) [0]
      (by rw [List.length_replicate]; exact Nat.le_refl _) hlt rfl hread
    rw [gtp2ieDecap, hstart, hdecap, List.length_replicate]
    exact ⟨rfl, List.mem_append_right _ (List.mem_singleton_self 256)⟩

end AaltoMME.GTP
