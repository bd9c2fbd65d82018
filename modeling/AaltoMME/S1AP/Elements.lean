import AaltoMME.S1AP.Message

/-!
# The elements of a message

`s1ap_findIe` looks an IE up and `s1ap_getIe` takes it out of the message.  The loop of the first one ends at a match,
the loop of the second one goes on and keeps the last match.
-/

namespace AaltoMME.S1AP

variable {V : Type}

/-- `s1ap_findIe`, with `none` for NULL. -/
def s1apFindIe (msg : Message (Option V)) (id : UInt16) : Option V :=
  (msg.pdu.value.find? (·.id = id)).bind (·.value)

/-- The first loop of `s1ap_getIe`, at the index `i`. -/
def findElem (id : UInt16) : List (ProtocolIE (Option V)) → Nat → Option Nat → Option Nat
  | [], _, elem => elem
  | ie :: l, i, elem => findElem id l (i + 1) (if ie.id = id then some i else elem)

/-- `s1ap_getIe`: the value and the message that is left.  Its second loop moves the IEs behind the element down. -/
def s1apGetIe (msg : Message (Option V)) (id : UInt16) : Option V × Message (Option V) :=
  match findElem id msg.pdu.value 0 none with
  | none => (none, msg)
  | some elem =>
    (msg.pdu.value[elem]?.bind (·.value),
      { msg with pdu := { msg.pdu with value := msg.pdu.value.take elem ++ msg.pdu.value.drop (elem + 1) } })

section FindElem

variable {id : UInt16} {l l' : List (ProtocolIE (Option V))}

theorem findElem_of_forall_ne (h : ∀ ie ∈ l, ie.id ≠ id) (i : Nat) (elem : Option Nat) :
    findElem id l i elem = elem := by
  induction l generalizing i with
  | nil => rfl
  | cons ie l ih =>
    rw [findElem, if_neg (h ie List.mem_cons_self)]
    exact ih (fun x hx => h x (List.mem_cons_of_mem ie hx)) (i + 1)

theorem findElem_append (i : Nat) (elem : Option Nat) :
    findElem id (l ++ l') i elem = findElem id l' (i + l.length) (findElem id l i elem) := by
  induction l generalizing i elem with
  | nil => rfl
  | cons ie l ih => rw [List.cons_append, findElem, ih, List.length_cons, Nat.add_comm l.length, ← Nat.add_assoc]; rfl

theorem exists_findElem (h : ∃ ie ∈ l, ie.id = id) (i : Nat) (elem : Option Nat) :
    ∃ k < l.length, findElem id l i elem = some (i + k) := by
  induction l generalizing i elem with
  | nil => simp at h
  | cons ie l ih =>
    by_cases hrest : ∃ ie ∈ l, ie.id = id
    · obtain ⟨k, hk, hfind⟩ := ih hrest (i + 1) (if ie.id = id then some i else elem)
      exact ⟨k + 1, Nat.succ_lt_succ hk, by rw [findElem, hfind, Nat.add_assoc, Nat.add_comm 1]⟩
    · have hne : ∀ x ∈ l, x.id ≠ id := fun x hx hid => hrest ⟨x, hx, hid⟩
      have hid : ie.id = id := by
        obtain ⟨x, hx, hid⟩ := h
        rcases List.mem_cons.mp hx with rfl | hx
        · exact hid
        · exact absurd hid (hne x hx)
      exact ⟨0, Nat.succ_pos _, by rw [findElem, findElem_of_forall_ne hne, if_pos hid]; rfl⟩

end FindElem

/-- `s1ap_getIe` returns what `s1ap_findIe` has found and takes this IE, and no other, out of the message, which keeps
the others in their order; and nothing changes when there is no such IE. -/
structure GetsFound (msg : Message (Option V)) (id : UInt16) : Prop where
  found : ∀ l ie l', msg.pdu.value = l ++ ie :: l' → (∀ x ∈ l, x.id ≠ id) → ie.id = id →
    s1apFindIe msg id = ie.value ∧ (s1apGetIe msg id).1 = ie.value ∧
      (s1apGetIe msg id).2 = { msg with pdu := { msg.pdu with value := l ++ l' } }
  missing : (∀ ie ∈ msg.pdu.value, ie.id ≠ id) → s1apFindIe msg id = none ∧ s1apGetIe msg id = (none, msg)

theorem s1apFindIe_append {msg : Message (Option V)} {id : UInt16} {l l' : List (ProtocolIE (Option V))}
    {ie : ProtocolIE (Option V)} (hmsg : msg.pdu.value = l ++ ie :: l') (hne : ∀ x ∈ l, x.id ≠ id) (hid : ie.id = id) :
    s1apFindIe msg id = ie.value := by
  have hnone : l.find? (·.id = id) = none := List.find?_eq_none.mpr fun x hx => by simpa using hne x hx
  rw [s1apFindIe, hmsg, List.find?_append, hnone, Option.none_or, List.find?_cons_of_pos (by simpa using hid),
    Option.bind_some]

/-- A message with one IE of the id, or none. -/
theorem getsFound_of_count {msg : Message (Option V)} {id : UInt16} (h : (msg.pdu.value.map (·.id)).count id ≤ 1) :
    GetsFound msg id where
  found l ie l' hmsg hne hid := by
    have hne' : ∀ x ∈ l', x.id ≠ id := by
      intro x hx hid'
      have hmem : id ∈ l'.map (·.id) := List.mem_map.mpr ⟨x, hx, hid'⟩
      have hpos := List.count_pos_iff.mpr hmem
      rw [hmsg, List.map_append, List.map_cons, List.count_append, hid, List.count_cons_self] at h
      omega
    have helem : findElem id msg.pdu.value 0 none = some l.length := by
      rw [hmsg, findElem_append, findElem, if_pos hid, findElem_of_forall_ne hne', Nat.zero_add]
    have hvalue : msg.pdu.value[l.length]? = some ie := by simp [hmsg]
    have htake : msg.pdu.value.take l.length = l := by simp [hmsg]
    have hdrop : msg.pdu.value.drop (l.length + 1) = l' := by simp [hmsg]
    have hget : s1apGetIe msg id = (ie.value, { msg with pdu := { msg.pdu with value := l ++ l' } }) := by
      simp only [s1apGetIe, helem, hvalue, htake, hdrop, Option.bind_some]
    rw [hget]
    exact ⟨s1apFindIe_append hmsg hne hid, rfl, rfl⟩
  missing hne := by
    have hnone : msg.pdu.value.find? (·.id = id) = none := List.find?_eq_none.mpr fun x hx => by simpa using hne x hx
    refine ⟨by rw [s1apFindIe, hnone]; rfl, ?_⟩
    simp only [s1apGetIe, findElem_of_forall_ne hne]

/-- **Lookup and extraction.** For all ids of the IEs of a message and every id: whatever the IEs hold, `s1ap_getIe`
takes out the IE that `s1ap_findIe` finds, if and only if not more than one IE has the id. -/
theorem getIe_findIe_iff (ids : List UInt16) (id : UInt16) :
    (∀ (V : Type) (msg : Message (Option V)), msg.pdu.value.map (·.id) = ids → GetsFound msg id) ↔
      ids.count id ≤ 1 := by
  constructor
  · intro h
    by_contra hcount
    obtain ⟨a, b, rfl, hnot⟩ := List.eq_append_cons_of_mem (show id ∈ ids from List.count_pos_iff.mp (by omega))
    have hmem : id ∈ b := by
      rw [List.count_append, List.count_eq_zero_of_not_mem hnot, List.count_cons_self] at hcount
      exact List.count_pos_iff.mp (by omega)
    -- the IEs behind the first one of the id have another value
    let l : List (ProtocolIE (Option Bool)) := a.map fun id => ⟨id, 0, some false⟩
    let l' : List (ProtocolIE (Option Bool)) := b.map fun id => ⟨id, 0, some true⟩
    let ie : ProtocolIE (Option Bool) := ⟨id, 0, some false⟩
    have hne : ∀ x ∈ l, x.id ≠ id := by
      rintro x hx rfl
      obtain ⟨i, hi, rfl⟩ := List.mem_map.mp hx
      exact hnot hi
    have hgets := h Bool ⟨0, 0, ⟨0, 0, 0, l ++ ie :: l'⟩⟩ (by simp [l, l', ie, Function.comp_def])
    obtain ⟨-, hvalue, -⟩ := hgets.found l ie l' rfl hne rfl
    obtain ⟨k, hk, helem⟩ := exists_findElem (l := l') ⟨⟨id, 0, some true⟩, List.mem_map.mpr ⟨id, hmem, rfl⟩, rfl⟩
      (0 + (l ++ [ie]).length) (findElem id (l ++ [ie]) 0 none)
    have hget : (l ++ ie :: l')[0 + (l ++ [ie]).length + k]?.bind (·.value) = some true := by
      have hidx : 0 + (l ++ [ie]).length + k - l.length = k + 1 := by
        rw [List.length_append, List.length_singleton]
        omega
      rw [List.getElem?_append_right (by rw [List.length_append]; omega), hidx, List.getElem?_cons_succ,
        List.getElem?_eq_getElem hk, Option.bind_some, List.getElem_map]
    rw [← findElem_append, List.append_assoc, List.singleton_append] at helem
    simp only [s1apGetIe, helem, hget] at hvalue
    exact absurd hvalue (by simp [ie])
  · rintro h V msg rfl
    exact getsFound_of_count h

/-- A message with three different IEs. -/
theorem getIe_findIe_three : s1apGetIe (V := Nat) ⟨0, 0, ⟨17, 0, 0, [⟨59, 0, some 1⟩, ⟨64, 0, some 2⟩, ⟨137, 1, some 3⟩]⟩⟩ 64 =
    (some 2, ⟨0, 0, ⟨17, 0, 0, [⟨59, 0, some 1⟩, ⟨137, 1, some 3⟩]⟩⟩) := by
  have hgets := (getIe_findIe_iff [59, 64, 137] 64).mpr (by decide) Nat
    ⟨0, 0, ⟨17, 0, 0, [⟨59, 0, some 1⟩, ⟨64, 0, some 2⟩, ⟨137, 1, some 3⟩]⟩⟩ rfl
  obtain ⟨-, hvalue, hmsg⟩ := hgets.found [⟨59, 0, some 1⟩] ⟨64, 0, some 2⟩ [⟨137, 1, some 3⟩] rfl (by simp) rfl
  exact Prod.ext hvalue hmsg

/-- Two lists of tracking areas: the first one is found, the second one is taken out. -/
theorem not_getIe_findIe :
    s1apFindIe (V := Nat) ⟨0, 0, ⟨17, 0, 0, [⟨64, 0, some 1⟩, ⟨64, 0, some 2⟩]⟩⟩ 64 = some 1 ∧
    s1apGetIe (V := Nat) ⟨0, 0, ⟨17, 0, 0, [⟨64, 0, some 1⟩, ⟨64, 0, some 2⟩]⟩⟩ 64 =
      (some 2, ⟨0, 0, ⟨17, 0, 0, [⟨64, 0, some 1⟩]⟩⟩) := by
  decide

end AaltoMME.S1AP
