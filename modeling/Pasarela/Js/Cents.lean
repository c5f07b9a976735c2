import Mathlib.Tactic.Linarith
import Pasarela.Js.NumberText

/-!
# Hundredths

The text of `n / 100` for an integer `n`: what a program sends that keeps amounts in hundredths.

* `denoted_div_hundred`: the text denotes the hundredths, below `10 ^ 15` of them.
* `denoted_div_hundred_ne`: it never denotes the integer itself.
-/

namespace Js

/-- The hundredths of an integer are not subnormal. -/
theorem le_log_hundredths {y : ℚ} (hy : 1 ≤ y) : -1022 ≤ Int.log 2 (y / 100) := by
  have hpos : (0 : ℚ) < y / 100 := by linarith
  have hle : ((2 : ℕ) : ℚ) ^ (-7 : ℤ) ≤ y / 100 := by
    norm_num
    linarith
  have hlog := (Int.zpow_le_iff_le_log (by decide) hpos).mp hle
  omega

/-- Rounded hundredths are closer to the exact ones than to the middle of two. -/
theorem abs_nearest_hundredths {n : ℕ} (h0 : 0 < n) (h : n ≤ 3 * 10 ^ 15) :
    |nearest (n / 100) - n / 100| < 1 / 200 := by
  have hone : (1 : ℚ) ≤ n := by exact_mod_cast h0
  have hle : (n : ℚ) ≤ 3000000000000000 := by exact_mod_cast h
  have herr := abs_nearest_sub_le (q := n / 100) (by linarith) (le_log_hundredths hone)
  refine herr.trans_lt ?_
  rw [div_lt_iff₀ (by norm_num)]
  norm_num
  linarith

/-- Hundredths that are rounded to one number are the same. -/
theorem hundredths_inj {m n : ℕ} (hm0 : 0 < m) (hm : m ≤ 3 * 10 ^ 15) (hn0 : 0 < n)
    (hn : n ≤ 3 * 10 ^ 15) (h : nearest (m / 100) = nearest (n / 100)) : m = n := by
  have h₁ := abs_lt.mp (abs_nearest_hundredths hm0 hm)
  have h₂ := abs_lt.mp (abs_nearest_hundredths hn0 hn)
  rw [h] at h₁
  have hlt : (m : ℚ) < n + 1 := by linarith
  have hgt : (n : ℚ) < m + 1 := by linarith
  have hlt' : m < n + 1 := by exact_mod_cast hlt
  have hgt' : n < m + 1 := by exact_mod_cast hgt
  omega

section Digits

variable {n : ℕ}

theorem hundredth_eq : (n : ℚ) * 10 ^ (-2 : ℤ) = n / 100 := by
  rw [zpow_neg, ← div_eq_mul_inv]
  norm_num

/-- Two places after the point are enough for hundredths. -/
theorem shortestWith_hundredths (h0 : 0 < n) (h : n ≤ 10 ^ 15) {k : ℕ}
    (hk : Int.log 10 (nearest (n / 100 : ℚ)) + 1 - k = -2) :
    shortestWith (nearest (n / 100)) k = some (n, -2) := by
  have herr := abs_lt.mp (abs_nearest_hundredths h0 (h.trans (by norm_num)))
  set x := nearest (n / 100 : ℚ) with hx
  have hfits : Fits x n (-2) := by rw [Fits, hundredth_eq]
  have hscale : x / 10 ^ (-2 : ℤ) = x * 100 := by
    rw [zpow_neg, div_inv_eq_mul]
    norm_num
  simp only [shortestWith, hk, hscale]
  by_cases hle : (n : ℚ) ≤ x * 100
  · have hfloor : ⌊x * 100⌋₊ = n := by
      rw [Nat.floor_eq_iff (by linarith [(Nat.cast_nonneg n : (0 : ℚ) ≤ n)])]
      exact ⟨hle, by linarith⟩
    rw [hfloor, if_pos]
    refine ⟨hfits, ?_⟩
    rintro ⟨-, hr | ⟨hr, -⟩⟩ <;> linarith
  · obtain ⟨m, rfl⟩ : ∃ m, n = m + 1 := ⟨n - 1, by omega⟩
    push_cast at hle herr
    have hfloor : ⌊x * 100⌋₊ = m := by
      rw [Nat.floor_eq_iff (by linarith [(Nat.cast_nonneg m : (0 : ℚ) ≤ m)])]
      exact ⟨by linarith, by linarith⟩
    rw [hfloor, if_neg, if_pos hfits]
    rintro ⟨-, hr⟩
    exact hr ⟨hfits, .inl (by linarith)⟩

/-- Fewer digits that fit are the same hundredths. -/
theorem eq_of_shortestWith_hundredths (h0 : 0 < n) (h : n ≤ 10 ^ 15) {k s : ℕ} {e : ℤ}
    (hk : k ≤ Int.log 10 (nearest (n / 100 : ℚ)) + 3)
    (hs : shortestWith (nearest (n / 100)) k = some (s, e)) : (s : ℚ) * 10 ^ e = n / 100 := by
  have herr := abs_lt.mp (abs_nearest_hundredths h0 (h.trans (by norm_num)))
  have hone : (1 : ℚ) ≤ n := by exact_mod_cast h0
  have hn : (n : ℚ) ≤ 1000000000000000 := by exact_mod_cast h
  have hfit := fits_of_shortestWith hs
  have he := exp_of_shortestWith hs
  obtain ⟨m, hm⟩ : ∃ m : ℕ, (s : ℚ) * 10 ^ e = m / 100 := by
    refine ⟨s * 10 ^ (e + 2).toNat, ?_⟩
    have hexp : (10 : ℚ) ^ (e + 2).toNat = 10 ^ e * 100 := by
      have hcast : (((e + 2).toNat : ℕ) : ℤ) = e + 2 := by omega
      rw [← zpow_natCast, hcast, zpow_add₀ (by norm_num)]
      norm_num
    push_cast
    rw [hexp]
    ring
  rw [Fits, hm] at hfit
  have hm0 : 0 < m := by
    refine Nat.pos_of_ne_zero fun hzero => ?_
    have hnear : nearest 0 = 0 := by simp [nearest, roundEven]
    rw [hzero, Nat.cast_zero, zero_div, hnear] at hfit
    rw [← hfit] at herr
    linarith
  have hm15 : m ≤ 3 * 10 ^ 15 := by
    have hm1 : (1 : ℚ) ≤ m := by exact_mod_cast hm0
    have hrel := abs_le.mp (abs_nearest_sub_le (q := m / 100) (by linarith) (le_log_hundredths hm1))
    rw [hfit] at hrel
    norm_num at hrel
    have hle : (m : ℚ) ≤ 3000000000000000 := by linarith
    exact_mod_cast hle
  rw [hm, hundredths_inj hm0 hm15 h0 (h.trans (by norm_num)) hfit]

/-- The decimal order of rounded hundredths. -/
theorem log_hundredths (h0 : 0 < n) (h : n ≤ 10 ^ 15) :
    -2 ≤ Int.log 10 (nearest (n / 100 : ℚ)) ∧ Int.log 10 (nearest (n / 100 : ℚ)) < 14 := by
  have herr := abs_lt.mp (abs_nearest_hundredths h0 (h.trans (by norm_num)))
  have hn : (n : ℚ) ≤ 1000000000000000 := by exact_mod_cast h
  have hge : (1 : ℚ) / 100 ≤ nearest (n / 100) := by
    obtain rfl | h2 : n = 1 ∨ 2 ≤ n := by omega
    · decide +kernel
    · have hn2 : (2 : ℚ) ≤ n := by exact_mod_cast h2
      linarith
  have hpos : (0 : ℚ) < nearest (n / 100) := by linarith
  constructor
  · rw [← Int.zpow_le_iff_le_log (by decide) hpos]
    norm_num
    linarith
  · rw [← Int.lt_zpow_iff_log_lt (by decide) hpos]
    norm_num
    linarith

theorem fewestDigits_hundredths (h0 : 0 < n) (h : n ≤ 10 ^ 15) :
    ((fewestDigits (nearest (n / 100))).1 : ℚ) * 10 ^ (fewestDigits (nearest (n / 100))).2 =
      n / 100 := by
  obtain ⟨hlow, hhigh⟩ := log_hundredths h0 h
  obtain ⟨k, hk⟩ : ∃ k : ℕ, (k : ℤ) = Int.log 10 (nearest (n / 100 : ℚ)) + 3 :=
    ⟨(Int.log 10 (nearest (n / 100 : ℚ)) + 3).toNat, by omega⟩
  refine fewestDigits_value k (List.mem_range'_1.mpr (by omega)) ?_ ?_
  · rw [shortestWith_hundredths h0 h (by omega)]
    rfl
  · intro j s e _ hj hs
    exact eq_of_shortestWith_hundredths h0 h (by omega) hs

end Digits

/-- **The text of hundredths denotes them**, up to `10 ^ 15`. -/
theorem denoted_div_hundred {n : ℤ} (h0 : 0 < n) (h : n ≤ 10 ^ 15) :
    ((Number.ofInt n).div 100).denoted = some ((n : ℚ) / 100) := by
  obtain ⟨k, rfl⟩ := Int.eq_ofNat_of_zero_le h0.le
  have hk0 : 0 < k := by omega
  have hk : k ≤ 10 ^ 15 := by omega
  obtain ⟨m, hm, hval⟩ := Number.ofInt_finite (n := k) (by omega)
  have hneg : decide ((k : ℤ) < 0) = false := decide_eq_false (by omega)
  have herr := abs_lt.mp (abs_nearest_hundredths hk0 (hk.trans (by norm_num)))
  have hone : (1 : ℚ) ≤ k := by exact_mod_cast hk0
  have hle : (k : ℚ) ≤ 1000000000000000 := by exact_mod_cast hk
  have hlt : nearest (k / 100 : ℚ) < 2 ^ 1024 := by
    have hsmall : nearest (k / 100 : ℚ) < 2 ^ 60 := by
      norm_num
      linarith
    exact hsmall.trans (pow_lt_pow_right₀ (by norm_num) (by decide))
  obtain ⟨m', hm', hval'⟩ := Number.round_finite false hlt
  have hdiv : (Number.ofInt k).div 100 = .finite false m' := by
    rw [hm, hneg, Number.div, hval, ← hm']
    rfl
  have hne : m'.val ≠ 0 := by
    rw [hval']
    intro hzero
    rw [hzero] at herr
    linarith
  rw [hdiv, denoted_finite _ hne, hval', fewestDigits_hundredths hk0 hk]
  simp

/-- A rounded integer is not rounded to its own hundredth part. -/
theorem nearest_ne_hundredths {y : ℚ} (hy : 1 ≤ y) : nearest (y / 100) ≠ y := by
  intro h
  have herr := abs_le.mp (abs_nearest_sub_le (q := y / 100) (by linarith) (le_log_hundredths hy))
  rw [h] at herr
  norm_num at herr
  linarith

theorem one_le_nearest_natCast {k : ℕ} (h : 0 < k) : 1 ≤ nearest (k : ℚ) := by
  have hone : (1 : ℚ) ≤ k := by exact_mod_cast h
  have hlog : 0 ≤ Int.log 2 (k : ℚ) := by
    rw [Int.log_natCast]
    omega
  exact (one_le_zpow₀ (by norm_num) hlog).trans (zpow_log_le_nearest (by linarith) (by omega))

/-- **The text of hundredths never denotes the integer.** -/
theorem denoted_div_hundred_ne {n : ℤ} (h0 : 0 < n) :
    ((Number.ofInt n).div 100).denoted ≠ some (n : ℚ) := by
  obtain ⟨k, rfl⟩ := Int.eq_ofNat_of_zero_le h0.le
  have hk : 0 < k := by omega
  have hneg : decide ((k : ℤ) < 0) = false := decide_eq_false (by omega)
  have hof : Number.ofInt k = .round false k := by
    rw [Number.ofInt, hneg]
    rfl
  intro hden
  rw [hof] at hden
  rcases Number.round_cases false (k : ℚ) with hm | ⟨m, hm, hval⟩ <;> rw [hm] at hden
  · cases hden
  have hdiv : (Number.finite false m).div 100 = .round false (m.val / 100) := rfl
  rw [hdiv] at hden
  rcases Number.round_cases false (m.val / 100) with hm' | ⟨m', hm', hval'⟩ <;> rw [hm'] at hden
  · cases hden
  by_cases hzero : m'.val = 0
  · rw [denoted_zero _ hzero] at hden
    have hk0 : (0 : ℚ) = k := Option.some.inj hden
    exact hk.ne (by exact_mod_cast hk0)
  · rw [denoted_finite _ hzero] at hden
    have hfit := fewestDigits_fits m'
    have hvalue : ((fewestDigits m'.val).1 : ℚ) * 10 ^ (fewestDigits m'.val).2 = k := by
      simpa using hden
    -- both round to the number whose digits were written
    rw [Fits, hvalue, hval', hval] at hfit
    exact nearest_ne_hundredths (one_le_nearest_natCast hk) hfit.symm

end Js
