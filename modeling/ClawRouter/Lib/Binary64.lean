/-
  Subject:   What a number that is not negative is rounded to in binary64.

  A result is the multiple of `ulp` next to the exact number, the even multiple between two. The
  exponent has no upper end here: the numbers in use are far below `2 ^ 1024`.

  * `round_mono`, `round_natCast`: the order is kept, and naturals to `2 ^ 53` are exact;
  * **`ceil_round_div`**: so is the ceiling of a million-th of one.
-/
import Mathlib.Algebra.Order.Floor.Semiring
import Mathlib.Algebra.Order.Round
import Mathlib.Data.Int.Log
import Mathlib.Data.Rat.Floor
import Mathlib.Tactic.Linarith
import Mathlib.Tactic.NormNum
import Mathlib.Tactic.Positivity

namespace Binary64

/-! ## 1. Integers -/

/-- The integer next to `q`, the even one between two. -/
def roundEven (q : ℚ) : ℤ :=
  if (⌊q + 1 / 2⌋ : ℚ) = q + 1 / 2 ∧ ¬ Even ⌊q + 1 / 2⌋ then ⌊q + 1 / 2⌋ - 1 else ⌊q + 1 / 2⌋

theorem roundEven_mono {q r : ℚ} (h : q ≤ r) : roundEven q ≤ roundEven r := by
  rcases h.eq_or_lt with rfl | hlt
  · exact le_rfl
  have hfloor : ⌊q + 1 / 2⌋ ≤ ⌊r + 1 / 2⌋ := Int.floor_le_floor (by linarith)
  unfold roundEven
  split_ifs with hq hr hr
  · omega
  · omega
  · -- between two, the floor of the smaller number is not the upper one
    have hless : ⌊q + 1 / 2⌋ < ⌊r + 1 / 2⌋ := Int.floor_lt.mpr (by rw [hr.1]; linarith)
    omega
  · exact hfloor

theorem roundEven_intCast (m : ℤ) : roundEven m = m := by
  have hfloor : ⌊(m : ℚ) + 1 / 2⌋ = m := Int.floor_eq_iff.mpr ⟨by linarith, by linarith⟩
  unfold roundEven
  rw [hfloor, if_neg fun h => by linarith [h.1]]

theorem roundEven_le {q : ℚ} {m : ℤ} (h : q ≤ m) : roundEven q ≤ m :=
  (roundEven_mono h).trans_eq (roundEven_intCast m)

theorem le_roundEven {q : ℚ} {m : ℤ} (h : (m : ℚ) ≤ q) : m ≤ roundEven q :=
  (roundEven_intCast m).symm.trans_le (roundEven_mono h)

theorem lt_roundEven {q : ℚ} {m : ℤ} (h : (m : ℚ) + 1 / 2 < q) : m < roundEven q := by
  have hfloor : m + 1 ≤ ⌊q + 1 / 2⌋ := Int.le_floor.mpr (by push_cast; linarith)
  unfold roundEven
  split_ifs with hq
  · have hnext : ((m + 1 : ℤ) : ℚ) < ⌊q + 1 / 2⌋ := by
      rw [hq.1]
      push_cast
      linarith
    have := Int.cast_lt.mp hnext
    omega
  · omega

/-! ## 2. Numbers -/

/-- The exponent of the last bit of 53, which is never below that of the smallest number. -/
def lastBit (q : ℚ) : ℤ := max (Int.log 2 q - 52) (-1074)

def ulp (q : ℚ) : ℚ := 2 ^ lastBit q

/-- The binary64 number next to `q`. -/
def round (q : ℚ) : ℚ := roundEven (q / ulp q) * ulp q

theorem ulp_pos (q : ℚ) : 0 < ulp q := zpow_pos two_pos _

theorem round_nonneg {q : ℚ} (h : 0 ≤ q) : 0 ≤ round q := by
  have hle : (0 : ℤ) ≤ roundEven (q / ulp q) := le_roundEven (by push_cast; exact div_nonneg h (ulp_pos q).le)
  exact mul_nonneg (Int.cast_nonneg hle) (ulp_pos q).le

/-- A power of two that is not below the last bit is a multiple of it. -/
theorem exists_multiple {q : ℚ} {k : ℤ} (h : lastBit q ≤ k) : ∃ m : ℤ, (2 : ℚ) ^ k = m * ulp q := by
  obtain ⟨n, hn⟩ := Int.eq_ofNat_of_zero_le (sub_nonneg.mpr h)
  refine ⟨2 ^ n, ?_⟩
  rw [show k = n + lastBit q by omega, zpow_add₀ two_ne_zero]
  push_cast
  rfl

theorem round_le {q : ℚ} {m : ℤ} (h : q ≤ m * ulp q) : round q ≤ m * ulp q :=
  mul_le_mul_of_nonneg_right (Int.cast_le.mpr (roundEven_le ((div_le_iff₀ (ulp_pos q)).mpr h))) (ulp_pos q).le

theorem le_round {q : ℚ} {m : ℤ} (h : m * ulp q ≤ q) : m * ulp q ≤ round q :=
  mul_le_mul_of_nonneg_right (Int.cast_le.mpr (le_roundEven ((le_div_iff₀ (ulp_pos q)).mpr h))) (ulp_pos q).le

theorem round_eq {q : ℚ} {m : ℤ} (h : q = m * ulp q) : round q = q :=
  le_antisymm ((round_le h.le).trans_eq h.symm) (h.le.trans (le_round h.ge))

/-- **The order is kept**: in one binade by the integers, and between two by the power of two. -/
theorem round_mono {q r : ℚ} (h0 : 0 ≤ q) (h : q ≤ r) : round q ≤ round r := by
  rcases h0.eq_or_lt with rfl | hpos
  · rw [round_eq (show (0 : ℚ) = (0 : ℤ) * ulp 0 by simp)]
    exact round_nonneg h
  have hlog : Int.log 2 q ≤ Int.log 2 r := Int.log_mono_right hpos h
  rcases (show lastBit q ≤ lastBit r from max_le_max_right _ (by omega)).eq_or_lt with heq | hlt
  · unfold round ulp
    rw [heq]
    have hmono := roundEven_mono (div_le_div_of_nonneg_right h (ulp_pos r).le)
    exact mul_le_mul_of_nonneg_right (Int.cast_le.mpr hmono) (ulp_pos r).le
  · have hbit : lastBit r = Int.log 2 r - 52 := by
      unfold lastBit at hlt ⊢
      omega
    obtain ⟨m, hm⟩ := exists_multiple (show lastBit q ≤ Int.log 2 r by omega)
    obtain ⟨n, hn⟩ := exists_multiple (show lastBit r ≤ Int.log 2 r by omega)
    have hbelow : q ≤ (2 : ℚ) ^ Int.log 2 r := by
      have hless : Int.log 2 q < Int.log 2 r := by
        unfold lastBit at hlt
        omega
      exact ((Int.lt_zpow_iff_log_lt one_lt_two hpos).mpr hless).le
    have habove : (2 : ℚ) ^ Int.log 2 r ≤ r := Int.zpow_log_le_self one_lt_two (hpos.trans_le h)
    calc round q ≤ (2 : ℚ) ^ Int.log 2 r := by rw [hm] at hbelow ⊢; exact round_le hbelow
      _ ≤ round r := by rw [hn] at habove ⊢; exact le_round habove

/-! ## 3. Naturals -/

theorem lastBit_le {q : ℚ} {k : ℕ} (h0 : 0 < q) (h : q < 2 ^ (k + 1)) (hk : -1074 ≤ (k : ℤ) - 52) :
    lastBit q ≤ k - 52 := by
  have hlog : Int.log 2 q < k + 1 := (Int.lt_zpow_iff_log_lt one_lt_two h0).mp (by exact_mod_cast h)
  exact max_le (by omega) hk

/-- Naturals to `2 ^ 53` are exact. -/
theorem round_natCast {n : ℕ} (h : n ≤ 2 ^ 53) : round n = n := by
  rcases Nat.eq_zero_or_pos n with rfl | hpos
  · exact round_eq (m := 0) (by simp)
  have hbit : lastBit n ≤ 1 := by
    have hlt : (n : ℚ) < 2 ^ (53 + 1) := by exact_mod_cast h.trans_lt (by norm_num)
    exact lastBit_le (Nat.cast_pos.mpr hpos) hlt (by norm_num)
  rcases hbit.lt_or_eq with hlow | htop
  · obtain ⟨m, hm⟩ := exists_multiple (show lastBit n ≤ 0 by omega)
    refine round_eq (m := n * m) ?_
    rw [Int.cast_mul, mul_assoc, ← hm]
    simp
  · -- the last bit is 2 at the power itself only
    have hfull : (2 : ℚ) ^ (53 : ℤ) ≤ n := by
      have hlog : Int.log 2 (n : ℚ) = 53 := by
        unfold lastBit at htop
        omega
      rw [← hlog]
      exact Int.zpow_log_le_self one_lt_two (Nat.cast_pos.mpr hpos)
    obtain ⟨m, hm⟩ := exists_multiple (show lastBit n ≤ 53 by omega)
    have hle : (n : ℚ) ≤ (2 : ℚ) ^ (53 : ℤ) := by exact_mod_cast h
    exact round_eq (m := m) (by rw [← hm]; exact le_antisymm hle hfull)

/-- The ceiling of a million-th is that of the exact quotient: half a last bit is less than the
    distance of a quotient from the integer below it. -/
theorem ceil_round_div {n : ℕ} (h : n ≤ 2 ^ 53) :
    ⌈round (n / 1000000)⌉₊ = (n + 999999) / 1000000 := by
  rcases Nat.eq_zero_or_pos n with rfl | hpos
  · rw [Nat.cast_zero, zero_div, round_eq (show (0 : ℚ) = (0 : ℤ) * ulp 0 by simp)]
    rfl
  have hq : 0 < (n : ℚ) / 1000000 := div_pos (Nat.cast_pos.mpr hpos) (by norm_num)
  have hle : (n : ℚ) ≤ 2 ^ 53 := by exact_mod_cast h
  have hbit : lastBit ((n : ℚ) / 1000000) ≤ -19 := by
    have := @lastBit_le ((n : ℚ) / 1000000) 33 hq
      (by rw [div_lt_iff₀ (by norm_num)]; exact hle.trans_lt (by norm_num)) (by norm_num)
    omega
  obtain ⟨m, hm⟩ := exists_multiple (show lastBit ((n : ℚ) / 1000000) ≤ 0 by omega)
  rw [zpow_zero] at hm
  have hulp : ulp ((n : ℚ) / 1000000) ≤ 1 / 524288 := by
    calc ulp ((n : ℚ) / 1000000) ≤ (2 : ℚ) ^ (-19 : ℤ) := zpow_le_zpow_right₀ one_le_two hbit
      _ = 1 / 524288 := by norm_num
  obtain ⟨k, hk⟩ : ∃ k, (n + 999999) / 1000000 = k + 1 := ⟨(n + 999999) / 1000000 - 1, by omega⟩
  rw [hk, Nat.ceil_eq_iff (Nat.succ_ne_zero k)]
  have hupper : n ≤ 1000000 * (k + 1) := by omega
  have hlower : 1000000 * k + 1 ≤ n := by omega
  have hupper' : (n : ℚ) / 1000000 ≤ k + 1 := by
    rw [div_le_iff₀ (by norm_num)]
    exact_mod_cast hupper.trans_eq (Nat.mul_comm _ _)
  have hlower' : (k : ℚ) + 1 / 1000000 ≤ (n : ℚ) / 1000000 := by
    rw [le_div_iff₀ (by norm_num)]
    have : ((1000000 * k + 1 : ℕ) : ℚ) ≤ n := Nat.cast_le.mpr hlower
    push_cast at this
    linarith
  refine ⟨?_, ?_⟩
  · show (k : ℚ) < _
    have hgrid : (k : ℚ) = ((k * m : ℤ) : ℚ) * ulp ((n : ℚ) / 1000000) := by
      push_cast
      rw [mul_assoc, ← hm, mul_one]
    have hstep : (k * m : ℤ) < roundEven ((n : ℚ) / 1000000 / ulp ((n : ℚ) / 1000000)) := by
      refine lt_roundEven ?_
      rw [lt_div_iff₀ (ulp_pos _), add_mul, ← hgrid]
      linarith
    rw [hgrid]
    exact mul_lt_mul_of_pos_right (Int.cast_lt.mpr hstep) (ulp_pos _)
  · have hgrid : ((k : ℚ) + 1) = (((k + 1) * m : ℤ) : ℚ) * ulp ((n : ℚ) / 1000000) := by
      push_cast
      rw [mul_assoc, ← hm, mul_one]
    push_cast
    rw [hgrid] at hupper' ⊢
    exact round_le hupper'

end Binary64
