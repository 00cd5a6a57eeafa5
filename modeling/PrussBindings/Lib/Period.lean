import Mathlib.Data.Nat.Init
import Mathlib.Tactic

/-!
# Repetitions with a wrong period

A sequence `f 0, …, f (n - 1)` that is to be repeated, and is repeated with a period
that is one too short or one too long: the two are the same only if the sequence
is constant.

* `repeat_short_iff` — the last element is left out.
* `repeat_long_iff` — the first element comes twice.
-/

namespace Period

variable {α : Type*} {n : ℕ} {f : ℕ → α}

/-- A sequence whose elements are the same as the ones before them. -/
theorem const_of_succ (h : ∀ i, i + 1 < n → f (i + 1) = f i) {i : ℕ} (hi : i < n) : f i = f 0 := by
  induction i with
  | zero => rfl
  | succ i ih => exact (h i hi).trans (ih (by omega))

/-- A list whose elements a function does not tell apart. -/
theorem const_iff {β : Type*} {l : List α} (x : α) (g : α → β) (hl : 0 < l.length) :
    (∀ i < l.length, g (l.getD i x) = g (l.getD 0 x)) ↔ ∀ y ∈ l, ∀ z ∈ l, g y = g z := by
  constructor
  · intro h y hy z hz
    obtain ⟨i, hi, rfl⟩ := List.getElem_of_mem hy
    obtain ⟨j, hj, rfl⟩ := List.getElem_of_mem hz
    rw [List.getElem_eq_getD (h := hi) x, List.getElem_eq_getD (h := hj) x]
    exact (h i hi).trans (h j hj).symm
  · intro h i hi
    rw [← List.getElem_eq_getD (h := hi) x, ← List.getElem_eq_getD (h := hl) x]
    exact h _ (List.getElem_mem hi) _ (List.getElem_mem hl)

/-- One more, with a period that is one longer. -/
theorem add_one_mod_add_one (k n : ℕ) :
    (k + 1) % (n + 1) = if k % (n + 1) < n then k % (n + 1) + 1 else 0 := by
  have hlt : k % (n + 1) < n + 1 := Nat.mod_lt k n.succ_pos
  rw [Nat.add_mod_eq_ite]
  rcases Nat.eq_zero_or_pos n with rfl | hn
  · simp [Nat.mod_one]
  · rw [Nat.mod_eq_of_lt (show 1 < n + 1 by omega)]
    split_ifs <;> omega

/-- The last element is left out, if there are two. -/
theorem repeat_short_iff (hn : 0 < n) :
    (∀ k, f (k % n) = f (k % max (n - 1) 1)) ↔ ∀ i < n, f i = f 0 := by
  constructor
  · intro h i hi
    have hstep : ∀ i, i + 1 < n - 1 → f (i + 1) = f i := by
      intro i hi
      -- a whole repetition of the one and a whole repetition of the other
      have hfull : (n + i) % n = i := by
        rw [Nat.add_mod_left, Nat.mod_eq_of_lt (by omega)]
      have hshort : (n + i) % (n - 1) = i + 1 := by
        rw [show n + i = n - 1 + (i + 1) by omega, Nat.add_mod_left, Nat.mod_eq_of_lt hi]
      have hshift := h (n + i)
      rw [show max (n - 1) 1 = n - 1 by omega, hfull, hshort] at hshift
      exact hshift.symm
    rcases Nat.lt_or_ge i (n - 1) with hlt | hge
    · exact const_of_succ hstep hlt
    · obtain rfl : i = n - 1 := by omega
      rcases Nat.eq_or_lt_of_le hn with rfl | hn
      · rfl
      · have hlast := h (n - 1)
        rwa [show max (n - 1) 1 = n - 1 by omega, Nat.mod_self,
          Nat.mod_eq_of_lt (by omega)] at hlast
  · intro h k
    have hshort : k % max (n - 1) 1 < max (n - 1) 1 := Nat.mod_lt k (by omega)
    exact (h _ (Nat.mod_lt k hn)).trans (h _ (by omega)).symm

/-- The first element comes again at the end. -/
theorem repeat_long_iff (hn : 0 < n) :
    (∀ k, f (k % n) = f (if k % (n + 1) < n then k % (n + 1) else 0)) ↔ ∀ i < n, f i = f 0 := by
  constructor
  · intro h i hi
    refine const_of_succ (fun i hi => ?_) hi
    have hfull : (n + 1 + i) % n = i + 1 := by
      rw [show n + 1 + i = n + (i + 1) by omega, Nat.add_mod_left, Nat.mod_eq_of_lt hi]
    have hlong : (n + 1 + i) % (n + 1) = i := by
      rw [Nat.add_mod_left, Nat.mod_eq_of_lt (by omega)]
    have hshift := h (n + 1 + i)
    rwa [hfull, hlong, if_pos (by omega)] at hshift
  · intro h k
    rw [h _ (Nat.mod_lt k hn)]
    split
    · rename_i hlt
      exact (h _ hlt).symm
    · rfl

end Period
