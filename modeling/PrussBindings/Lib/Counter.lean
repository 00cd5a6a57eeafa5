import Mathlib.Tactic

/-!
# Free-running counters

Two sides of a circular table count what they have put in and taken out, and never set
their counters back: a counter overflows at some `M`, and the entry it stands for lies in
the slot `c % N`.  Since `N` divides `M`, the overflow does not disturb the slots.

* `mod_and_pred` — the slot is what a mask leaves of the counter.
* `mod_eq_iff` — counters that are less than `M` apart are told apart by their residues.
* `slot_inj` — entries that are less than `N` apart lie in different slots.
* `length_le_of_nodup` — different numbers below `N` are at most `N` many.
-/

namespace Counter

variable {c d k m M N : ℕ}

/-- **The slot of a counter.** -/
theorem mod_and_pred (hN : N = 2 ^ k) (hM : M = 2 ^ m) (hkm : k ≤ m) :
    (c % M) &&& (N - 1) = c % N := by
  subst hN hM
  rw [Nat.and_two_pow_sub_one_eq_mod, Nat.mod_mod_of_dvd _ (Nat.pow_dvd_pow 2 hkm)]

/-- Less than `M` apart, two counters are the same only if their residues are. -/
theorem mod_eq_iff (hcd : c ≤ d) (hlt : d < c + M) : c % M = d % M ↔ c = d := by
  refine ⟨fun h => ?_, fun h => h ▸ rfl⟩
  have hdvd : M ∣ d - c := (Nat.modEq_iff_dvd' hcd).1 h
  have hzero : d - c = 0 := Nat.eq_zero_of_dvd_of_lt hdvd (by omega)
  omega

/-- Less than `N` apart, two entries lie in different slots. -/
theorem slot_inj (hcd : c < d + N) (hdc : d < c + N) : c % N = d % N ↔ c = d := by
  rcases le_total c d with hle | hle
  · exact mod_eq_iff hle hdc
  · rw [eq_comm, mod_eq_iff hle hcd, eq_comm]

/-- Different numbers below `N` are at most `N` many. -/
theorem length_le_of_nodup {l : List ℕ} (hl : l.Nodup) (hlt : ∀ n ∈ l, n < N) : l.length ≤ N := by
  have hsub : l.toFinset ⊆ Finset.range N := fun n hn =>
    Finset.mem_range.2 (hlt n (List.mem_toFinset.1 hn))
  have hcard := Finset.card_le_card hsub
  rwa [List.toFinset_card_of_nodup hl, Finset.card_range] at hcard

end Counter
