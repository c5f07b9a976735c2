import Mathlib.Algebra.Order.Floor.Semiring
import Mathlib.Data.Int.Log
import Mathlib.Data.Rat.Floor
import Mathlib.Tactic.FieldSimp
import Mathlib.Tactic.Positivity
import Mathlib.Tactic.Ring

/-!
# Numbers of JavaScript

A number of JavaScript is a binary64 number. `Number` has the finite ones, with their exact
magnitude and a sign, and the infinities; there is no `NaN`, since nothing here computes one.

* `nearest q`: the magnitude `q` rounded to 53 binary places, half to even. The least exponent is
  the one of the subnormal numbers, and there is no greatest one.
* `Number.round`: a number from an exact magnitude; `nearest q` that is too large gives an infinity.
* `nearest_nearest`: what was rounded stays as it is.
-/

namespace Js

/-- A nonnegative number rounded to an integer, half to even. -/
def roundEven (q : ℚ) : ℕ :=
  if q - ⌊q⌋₊ < 1 / 2 ∨ q - ⌊q⌋₊ = 1 / 2 ∧ ⌊q⌋₊ % 2 = 0 then ⌊q⌋₊ else ⌊q⌋₊ + 1

/-- The exponent of the last of the binary places of `q`. -/
def lastPlace (q : ℚ) : ℤ := max (Int.log 2 q - 52) (-1074)

/-- The magnitude `q` in binary64 (module doc). -/
def nearest (q : ℚ) : ℚ := roundEven (q / 2 ^ lastPlace q) * 2 ^ lastPlace q

/-! ## Rounding -/

theorem two_zpow_pos (e : ℤ) : (0 : ℚ) < 2 ^ e := zpow_pos (by decide) e

@[simp] theorem roundEven_natCast (n : ℕ) : roundEven n = n := by
  simp [roundEven]

theorem roundEven_le {q : ℚ} {n : ℕ} (hn : n ≠ 0) (h : q < n) : roundEven q ≤ n := by
  have hfloor : ⌊q⌋₊ < n := (Nat.floor_lt' hn).mpr h
  unfold roundEven
  split <;> omega

/-- A multiple of its last place is not rounded. -/
theorem nearest_of_multiple {q : ℚ} (n : ℕ) (h : q = n * 2 ^ lastPlace q) : nearest q = q := by
  have hpos := two_zpow_pos (lastPlace q)
  have hdiv : q / 2 ^ lastPlace q = n := by
    rw [div_eq_iff hpos.ne']
    exact h
  rw [nearest, hdiv, roundEven_natCast]
  exact h.symm

/-- A multiple of a place that is not before the last one. -/
theorem nearest_of_le {m : ℕ} {e : ℤ} (h : lastPlace (m * 2 ^ e) ≤ e) :
    nearest (m * 2 ^ e) = m * 2 ^ e := by
  obtain ⟨k, hk⟩ := Int.le.dest h
  refine nearest_of_multiple (m * 2 ^ k) ?_
  have hsplit : (2 : ℚ) ^ e = 2 ^ k * 2 ^ lastPlace (m * 2 ^ e) := by
    rw [← zpow_natCast, ← zpow_add₀ (by decide)]
    congr 1
    omega
  calc (m : ℚ) * 2 ^ e = m * (2 ^ k * 2 ^ lastPlace (m * 2 ^ e)) := by rw [← hsplit]
    _ = ((m * 2 ^ k : ℕ) : ℚ) * 2 ^ lastPlace (m * 2 ^ e) := by push_cast; ring

/-- A number with at most 53 binary places is not rounded. -/
theorem nearest_dyadic {m : ℕ} {e : ℤ} (hm : m ≤ 2 ^ 53) (he : -1074 ≤ e) :
    nearest (m * 2 ^ e) = m * 2 ^ e := by
  have hpos := two_zpow_pos e
  rcases Nat.eq_zero_or_pos m with rfl | h0
  · simp [nearest, roundEven]
  rcases Nat.lt_or_eq_of_le hm with hlt | rfl
  · refine nearest_of_le ?_
    have hq : (0 : ℚ) < m * 2 ^ e := by positivity
    have hlog : Int.log 2 ((m : ℚ) * 2 ^ e) < 53 + e := by
      rw [← Int.lt_zpow_iff_log_lt (by decide) hq]
      have hcast : (m : ℚ) < 2 ^ (53 : ℤ) := by exact_mod_cast hlt
      calc (m : ℚ) * 2 ^ e < 2 ^ (53 : ℤ) * 2 ^ e := by gcongr
        _ = ((2 : ℕ) : ℚ) ^ (53 + e) := by
          rw [← zpow_add₀ (by decide)]
          rfl
    unfold lastPlace
    omega
  · -- the carry into the next binary order
    have hcarry : ((2 ^ 53 : ℕ) : ℚ) * 2 ^ e = ((2 ^ 52 : ℕ) : ℚ) * 2 ^ (e + 1) := by
      rw [zpow_add₀ (by decide)]
      push_cast
      ring
    have hlog : Int.log 2 (((2 ^ 52 : ℕ) : ℚ) * 2 ^ (e + 1)) = 53 + e := by
      have hpow : ((2 ^ 52 : ℕ) : ℚ) * 2 ^ (e + 1) = ((2 : ℕ) : ℚ) ^ (53 + e) := by
        rw [show (53 : ℤ) + e = 52 + (e + 1) by ring, zpow_add₀ (by decide) 52]
        norm_num
      rw [hpow, Int.log_zpow (by decide)]
    rw [hcarry]
    refine nearest_of_le ?_
    unfold lastPlace
    omega

/-- A rounded number has at most 53 binary places. -/
theorem exists_dyadic (q : ℚ) :
    ∃ (m : ℕ) (e : ℤ), m ≤ 2 ^ 53 ∧ -1074 ≤ e ∧ nearest q = m * 2 ^ e := by
  refine ⟨roundEven (q / 2 ^ lastPlace q), lastPlace q, roundEven_le (by decide) ?_, le_max_right _ _, rfl⟩
  rw [div_lt_iff₀ (two_zpow_pos _)]
  have hlog : Int.log 2 q + 1 ≤ 53 + lastPlace q := by
    unfold lastPlace
    omega
  calc q < ((2 : ℕ) : ℚ) ^ (Int.log 2 q + 1) := Int.lt_zpow_succ_log_self (by decide) q
    _ ≤ ((2 : ℕ) : ℚ) ^ (53 + lastPlace q) := zpow_le_zpow_right₀ (by norm_num) hlog
    _ = ((2 ^ 53 : ℕ) : ℚ) * 2 ^ lastPlace q := by
      rw [zpow_add₀ (by decide)]
      norm_num

@[simp] theorem nearest_nearest (q : ℚ) : nearest (nearest q) = nearest q := by
  obtain ⟨m, e, hm, he, hq⟩ := exists_dyadic q
  rw [hq, nearest_dyadic hm he]

/-- Rounding keeps the binary order of a number that is not subnormal. -/
theorem zpow_log_le_nearest {q : ℚ} (hq : 0 < q) (h : -1022 ≤ Int.log 2 q) :
    (2 : ℚ) ^ Int.log 2 q ≤ nearest q := by
  have hlast : lastPlace q = Int.log 2 q - 52 := by
    unfold lastPlace
    omega
  have hpos := two_zpow_pos (lastPlace q)
  have hsplit : (2 : ℚ) ^ Int.log 2 q = ((2 ^ 52 : ℕ) : ℚ) * 2 ^ lastPlace q := by
    rw [show Int.log 2 q = 52 + lastPlace q by omega, zpow_add₀ (by decide)]
    norm_num
  have hfloor : 2 ^ 52 ≤ ⌊q / 2 ^ lastPlace q⌋₊ := by
    refine Nat.le_floor ?_
    rw [le_div_iff₀ hpos, ← hsplit]
    exact_mod_cast Int.zpow_log_le_self (by decide) hq
  have hround : 2 ^ 52 ≤ roundEven (q / 2 ^ lastPlace q) := by
    unfold roundEven
    split <;> omega
  rw [hsplit, nearest]
  exact mul_le_mul_of_nonneg_right (by exact_mod_cast hround) hpos.le

theorem abs_roundEven_sub_le {q : ℚ} (hq : 0 ≤ q) : |(roundEven q : ℚ) - q| ≤ 1 / 2 := by
  have hle := Nat.floor_le hq
  have hlt := Nat.lt_floor_add_one q
  unfold roundEven
  split
  next h =>
    rw [abs_sub_comm, abs_of_nonneg (by linarith)]
    rcases h with h | ⟨h, -⟩ <;> linarith
  next h =>
    have hhalf : 1 / 2 ≤ q - ⌊q⌋₊ := not_lt.mp fun hlt => h (.inl hlt)
    push_cast
    rw [abs_of_nonneg (by linarith)]
    linarith

/-- The relative error of rounding a number that is not subnormal. -/
theorem abs_nearest_sub_le {q : ℚ} (hq : 0 < q) (h : -1022 ≤ Int.log 2 q) :
    |nearest q - q| ≤ q / 2 ^ 53 := by
  have hlast : lastPlace q = Int.log 2 q - 52 := by
    unfold lastPlace
    omega
  have hpos := two_zpow_pos (lastPlace q)
  have hround := abs_roundEven_sub_le (q := q / 2 ^ lastPlace q) (by positivity)
  have hplace : (2 : ℚ) ^ lastPlace q = 2 ^ Int.log 2 q / 2 ^ 52 := by
    rw [hlast, zpow_sub₀ (by decide)]
    rfl
  have hlog : (2 : ℚ) ^ Int.log 2 q ≤ q := by
    exact_mod_cast Int.zpow_log_le_self (b := 2) (by decide) hq
  have hsub : nearest q - q =
      (roundEven (q / 2 ^ lastPlace q) - q / 2 ^ lastPlace q) * 2 ^ lastPlace q := by
    rw [nearest, sub_mul, div_mul_cancel₀ _ hpos.ne']
  calc |nearest q - q|
      = |(roundEven (q / 2 ^ lastPlace q) : ℚ) - q / 2 ^ lastPlace q| * 2 ^ lastPlace q := by
        rw [hsub, abs_mul, abs_of_pos hpos]
    _ ≤ 1 / 2 * 2 ^ lastPlace q := mul_le_mul_of_nonneg_right hround hpos.le
    _ = 2 ^ Int.log 2 q / 2 ^ 53 := by
        rw [hplace]
        ring
    _ ≤ q / 2 ^ 53 := by gcongr

theorem nearest_nonneg (q : ℚ) : 0 ≤ nearest q :=
  mul_nonneg (Nat.cast_nonneg _) (two_zpow_pos _).le

/-! ## Numbers -/

/-- The magnitude of a finite number. -/
structure Magnitude where
  val : ℚ
  nearest_val : nearest val = val
  lt : val < 2 ^ 1024

/-- A number of JavaScript other than `NaN` (module doc). -/
inductive Number where
  | finite (neg : Bool) (mag : Magnitude)
  | infinity (neg : Bool)

/-- The number with the exact magnitude `q`, rounded. -/
def Number.round (neg : Bool) (q : ℚ) : Number :=
  if h : nearest q < 2 ^ 1024 then .finite neg ⟨nearest q, nearest_nearest q, h⟩ else .infinity neg

/-- `Number(n)` of a `BigInt`. -/
def Number.ofInt (n : ℤ) : Number := .round (n < 0) n.natAbs

/-- `x / k` for a positive integer `k`. -/
def Number.div (k : ℕ) : Number → Number
  | .finite neg m => .round neg (m.val / k)
  | .infinity neg => .infinity neg

namespace Magnitude

variable (m : Magnitude)

theorem nonneg : 0 ≤ m.val := m.nearest_val ▸ nearest_nonneg m.val

theorem round_val (neg : Bool) : Number.round neg m.val = .finite neg m := by
  obtain ⟨q, hq, hlt⟩ := m
  have hfin : nearest q < 2 ^ 1024 := by
    rw [hq]
    exact hlt
  unfold Number.round
  rw [dif_pos hfin]
  congr 2

end Magnitude

example : nearest (1 / 10) = 3602879701896397 / 2 ^ 55 ∧
    nearest (10 ^ 23) = 99999999999999991611392 := by
  decide +kernel

end Js
