import Mathlib.Algebra.Order.Floor.Ring
import Mathlib.Data.Int.Log
import Mathlib.Data.Rat.Floor
import Mathlib.Tactic

/-!
# Rounding to a binary format

A binary floating-point format keeps the numbers `m * 2 ^ e` whose significand fits
its precision; the result of an operation is rounded to the nearest of them, and of
two to the one whose significand is even.  Overflow is left out: an exponent may be
as large as need be.

* `nearest` — to an integer, ties to even; `nearest_mono`.
* `Format.round` — to a format; `Format.round_of_representable` and
  `Format.round_mono` — **it keeps what can be represented, and it is
  monotone**, so that bounds that can be represented survive it.
* `truncate` — the conversion to an integer.
-/

namespace Rounding

/-- The nearest integer, and the even one of two. -/
def nearest (x : ℚ) : ℤ :=
  if x - ⌊x⌋ < 1 / 2 then ⌊x⌋
  else if 1 / 2 < x - ⌊x⌋ then ⌊x⌋ + 1
  else if Even ⌊x⌋ then ⌊x⌋ else ⌊x⌋ + 1

theorem nearest_intCast (n : ℤ) : nearest n = n := by
  simp [nearest]

theorem floor_le_nearest (x : ℚ) : ⌊x⌋ ≤ nearest x := by
  unfold nearest
  split_ifs <;> omega

theorem nearest_le_floor_add_one (x : ℚ) : nearest x ≤ ⌊x⌋ + 1 := by
  unfold nearest
  split_ifs <;> omega

theorem nearest_mono {x y : ℚ} (h : x ≤ y) : nearest x ≤ nearest y := by
  rcases (Int.floor_mono h).lt_or_eq with hlt | heq
  · calc nearest x ≤ ⌊x⌋ + 1 := nearest_le_floor_add_one x
      _ ≤ ⌊y⌋ := hlt
      _ ≤ nearest y := floor_le_nearest y
  · -- between the same two integers, by what the fractions are
    have hsub : x - ⌊x⌋ ≤ y - ⌊x⌋ := by linarith
    unfold nearest
    rw [← heq]
    split_ifs <;> first | omega | linarith

/-- A binary format: the bits of a significand, and the exponent of the smallest
positive number. -/
structure Format where
  precision : ℕ
  emin : ℤ
  precision_pos : 0 < precision

/-- Single precision. -/
def binary32 : Format := ⟨24, -149, by decide⟩

/-- Double precision. -/
def binary64 : Format := ⟨53, -1074, by decide⟩

namespace Format

variable (F : Format)

/-- The exponent of the last bit of a number. -/
def exponent (x : ℚ) : ℤ := max (Int.log 2 |x| - (F.precision - 1)) F.emin

/-- The number of the format that is nearest. -/
def round (x : ℚ) : ℚ := nearest (x / 2 ^ F.exponent x) * 2 ^ F.exponent x

/-- A number that can be represented, not negative. -/
def Representable (x : ℚ) : Prop :=
  ∃ (m : ℕ) (e : ℤ), m < 2 ^ F.precision ∧ F.emin ≤ e ∧ x = m * 2 ^ e

variable {F}

@[simp] theorem round_zero : F.round 0 = 0 := by
  have h := nearest_intCast 0
  rw [Int.cast_zero] at h
  simp [round, h]

theorem round_nonneg {x : ℚ} (hx : 0 ≤ x) : 0 ≤ F.round x := by
  have hdiv : (0 : ℚ) ≤ x / 2 ^ F.exponent x := by positivity
  have hnear : 0 ≤ nearest (x / 2 ^ F.exponent x) :=
    (Int.floor_nonneg.2 hdiv).trans (floor_le_nearest _)
  have hcast : (0 : ℚ) ≤ nearest (x / 2 ^ F.exponent x) := by exact_mod_cast hnear
  unfold round
  positivity

/-- A power of two is a multiple of a smaller one. -/
theorem zpow_div_zpow {a b : ℤ} (h : a ≤ b) : ∃ n : ℕ, (2 : ℚ) ^ b / 2 ^ a = n := by
  obtain ⟨k, rfl⟩ := Int.le.dest h
  refine ⟨2 ^ k, ?_⟩
  rw [zpow_add₀ two_ne_zero, mul_div_cancel_left₀ _ (by positivity)]
  push_cast
  rfl

/-- A multiple of the last bit is kept. -/
theorem round_of_div {x : ℚ} {n : ℤ} (h : x / 2 ^ F.exponent x = n) : F.round x = x := by
  rw [round, h, nearest_intCast, ← h]
  exact div_mul_cancel₀ x (by positivity)

/-- **What can be represented is kept.** -/
theorem round_of_representable {x : ℚ} (h : F.Representable x) : F.round x = x := by
  obtain ⟨m, e, hm, he, rfl⟩ := h
  rcases Nat.eq_zero_or_pos m with rfl | hpos
  · simp
  · have hx : (0 : ℚ) < m * 2 ^ e := by positivity
    have hlt : (m : ℚ) * 2 ^ e < ((2 : ℕ) : ℚ) ^ (F.precision + e) := by
      have hm' : (m : ℚ) < 2 ^ F.precision := by exact_mod_cast hm
      rw [Nat.cast_ofNat, zpow_add₀ two_ne_zero, zpow_natCast]
      exact mul_lt_mul_of_pos_right hm' (by positivity)
    have hlog := (Int.lt_zpow_iff_log_lt one_lt_two hx).1 hlt
    have hexp : F.exponent (m * 2 ^ e) ≤ e := by
      rw [exponent, abs_of_pos hx]
      exact max_le (by omega) he
    obtain ⟨n, hn⟩ := zpow_div_zpow hexp
    refine round_of_div (n := m * n) ?_
    rw [mul_div_assoc, hn]
    push_cast
    rfl

/-- What lies below a multiple of its last bit is not rounded beyond it, -/
theorem round_le {x b : ℚ} {n : ℤ} (hb : b / 2 ^ F.exponent x = n) (h : x ≤ b) :
    F.round x ≤ b := by
  have hunit : (0 : ℚ) < 2 ^ F.exponent x := by positivity
  have hnear : nearest (x / 2 ^ F.exponent x) ≤ n := by
    rw [← nearest_intCast n, ← hb]
    exact nearest_mono (div_le_div_of_nonneg_right h hunit.le)
  have hcast : (nearest (x / 2 ^ F.exponent x) : ℚ) ≤ n := by exact_mod_cast hnear
  rw [round, ← le_div_iff₀ hunit, hb]
  exact hcast

/-- and what lies above one not below it. -/
theorem le_round {x b : ℚ} {n : ℤ} (hb : b / 2 ^ F.exponent x = n) (h : b ≤ x) :
    b ≤ F.round x := by
  have hunit : (0 : ℚ) < 2 ^ F.exponent x := by positivity
  have hnear : n ≤ nearest (x / 2 ^ F.exponent x) := by
    rw [← nearest_intCast n, ← hb]
    exact nearest_mono (div_le_div_of_nonneg_right h hunit.le)
  have hcast : (n : ℚ) ≤ nearest (x / 2 ^ F.exponent x) := by exact_mod_cast hnear
  rw [round, ← div_le_iff₀ hunit, hb]
  exact hcast

/-- **Rounding is monotone.** -/
theorem round_mono {x y : ℚ} (hx : 0 ≤ x) (h : x ≤ y) : F.round x ≤ F.round y := by
  rcases hx.eq_or_lt with rfl | hpos
  · rw [round_zero]
    exact round_nonneg h
  have hypos := hpos.trans_le h
  have hlog : Int.log 2 x ≤ Int.log 2 y := Int.log_mono_right hpos h
  have hx' : F.exponent x = max (Int.log 2 x - (F.precision - 1)) F.emin := by
    rw [exponent, abs_of_pos hpos]
  have hy' : F.exponent y = max (Int.log 2 y - (F.precision - 1)) F.emin := by
    rw [exponent, abs_of_pos hypos]
  rcases (show F.exponent x ≤ F.exponent y by omega).eq_or_lt with heq | hlt
  · rw [round, round, ← heq]
    have hnear := nearest_mono (div_le_div_of_nonneg_right h
      (by positivity : (0 : ℚ) ≤ 2 ^ F.exponent x))
    have hcast : (nearest (x / 2 ^ F.exponent x) : ℚ) ≤ nearest (y / 2 ^ F.exponent x) := by
      exact_mod_cast hnear
    exact mul_le_mul_of_nonneg_right hcast (by positivity)
  · -- a power of two, a multiple of the last bit of both, lies between them
    have hprec := F.precision_pos
    have hbelow : x ≤ 2 ^ Int.log 2 y := by
      have hsucc := Int.lt_zpow_succ_log_self (b := 2) one_lt_two x
      have hpow : (2 : ℚ) ^ (Int.log 2 x + 1) ≤ 2 ^ Int.log 2 y :=
        zpow_le_zpow_right₀ one_le_two (by omega)
      rw [Nat.cast_ofNat] at hsucc
      exact hsucc.le.trans hpow
    have habove : (2 : ℚ) ^ Int.log 2 y ≤ y := by
      simpa using Int.zpow_log_le_self (b := 2) one_lt_two hypos
    obtain ⟨n, hn⟩ := zpow_div_zpow (show F.exponent x ≤ Int.log 2 y by omega)
    obtain ⟨m, hm⟩ := zpow_div_zpow (show F.exponent y ≤ Int.log 2 y by omega)
    exact (round_le (n := n) (by exact_mod_cast hn) hbelow).trans
      (le_round (n := m) (by exact_mod_cast hm) habove)

/-- Bounds that can be represented survive rounding. -/
theorem round_le_of_representable {x b : ℚ} (hb : F.Representable b) (hx : 0 ≤ x) (h : x ≤ b) :
    F.round x ≤ b := by
  have hround := round_mono (F := F) hx h
  rwa [round_of_representable hb] at hround

theorem le_round_of_representable {x b : ℚ} (hb : F.Representable b) (hpos : 0 ≤ b) (h : b ≤ x) :
    b ≤ F.round x := by
  have hround := round_mono (F := F) hpos h
  rwa [round_of_representable hb] at hround

end Format

/-- The conversion to an integer, towards zero. -/
def truncate (x : ℚ) : ℤ := if 0 ≤ x then ⌊x⌋ else ⌈x⌉

theorem truncate_of_nonneg {x : ℚ} (hx : 0 ≤ x) : truncate x = ⌊x⌋ := if_pos hx

theorem truncate_mono {x y : ℚ} (hx : 0 ≤ x) (h : x ≤ y) : truncate x ≤ truncate y := by
  rw [truncate_of_nonneg hx, truncate_of_nonneg (hx.trans h)]
  exact Int.floor_mono h

@[simp] theorem truncate_natCast (n : ℕ) : truncate n = n := by
  rw [truncate_of_nonneg (Nat.cast_nonneg n), Int.floor_natCast]

@[simp] theorem truncate_ofNat (n : ℕ) [n.AtLeastTwo] :
    truncate ofNat(n) = ofNat(n) :=
  truncate_natCast n

end Rounding
