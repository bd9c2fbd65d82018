import Mathlib.Data.List.Count
import Mathlib.Logic.Function.Basic

/-!
# Reference counters

A family of counters counts the references that are held to each key.  A key without references has no counter:
the first reference creates it, and dropping the last one removes it.
-/

namespace Base

variable {κ : Type*} [DecidableEq κ]

/-- The counters of the references in a list. -/
def Counts (refs : List κ) (count : κ → Option ℕ) : Prop :=
  ∀ k, count k = if k ∈ refs then some (refs.count k) else none

namespace Counts

variable {refs refs' : List κ} {count : κ → Option ℕ} {k : κ} {n : ℕ}

theorem nil : Counts ([] : List κ) fun _ => none := fun _ => rfl

theorem perm (h : Counts refs count) (hp : refs.Perm refs') : Counts refs' count := by
  intro k
  rw [h k, hp.count_eq]
  exact if_congr hp.mem_iff rfl rfl

/-- There is a counter exactly for the keys that are referred to. -/
theorem isSome_iff (h : Counts refs count) : (count k).isSome = true ↔ k ∈ refs := by
  rw [h k]
  split <;> simp_all

theorem eq_countP (h : Counts refs count) (hk : count k = some n) : n = refs.countP (· = k) := by
  rw [h k] at hk
  split at hk
  · rw [← Option.some.inj hk]
    exact List.countP_congr fun j _ => by simp
  · cases hk

theorem getD_eq_count (h : Counts refs count) (k : κ) : (count k).getD 0 = refs.count k := by
  rw [h k]
  split
  · rfl
  · exact (List.count_eq_zero_of_not_mem ‹_›).symm

theorem getD_le_length (h : Counts refs count) (k : κ) : (count k).getD 0 ≤ refs.length := by
  rw [h.getD_eq_count k]
  exact List.count_le_length

/-- One more reference. -/
theorem acquire (h : Counts refs count) (k : κ) :
    Counts (k :: refs) (Function.update count k (some ((count k).getD 0 + 1))) := by
  intro j
  rw [Function.update_apply]
  split
  · rename_i hj
    subst hj
    rw [h.getD_eq_count, if_pos (List.mem_cons_self ..), List.count_cons_self]
  · rename_i hj
    rw [h j, List.count_cons_of_ne (Ne.symm hj)]
    exact if_congr (by simp [hj]) rfl rfl

/-- One reference less: its counter is there, and goes with the last reference. -/
theorem release (h : Counts (k :: refs) count) :
    count k = some (refs.count k + 1) ∧
      Counts refs (Function.update count k (if refs.count k = 0 then none else some (refs.count k))) := by
  refine ⟨by rw [h k, if_pos (List.mem_cons_self ..), List.count_cons_self], fun j => ?_⟩
  rw [Function.update_apply]
  split
  · rename_i hj
    subst hj
    by_cases hzero : refs.count j = 0
    · rw [if_pos hzero, if_neg (List.count_eq_zero.mp hzero)]
    · rw [if_neg hzero, if_pos (List.count_pos_iff.mp (Nat.pos_of_ne_zero hzero))]
  · rename_i hj
    rw [h j, List.count_cons_of_ne (Ne.symm hj)]
    exact if_congr (by simp [hj]) rfl rfl

end Counts

end Base
