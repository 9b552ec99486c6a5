import Mathlib.Algebra.Order.Field.Power
import Mathlib.Data.Nat.Log
import Mathlib.Order.Interval.Set.OrdConnected
import Mathlib.Tactic.FieldSimp
import Mathlib.Tactic.Linarith
import Mathlib.Tactic.NormNum
import Mathlib.Tactic.Positivity
import Mathlib.Tactic.Ring
import MockApi.Number.Double

/-!
# Quotients and powers of two

Rounding a quotient of natural numbers takes two steps. The exponent of the greatest power of two
that the quotient reaches tells the unit to round at, and the quotient in that unit goes to the
nearest natural number. Over the rationals both steps have short descriptions: the exponent is the
integer part of a logarithm, and a natural number is what the quotients up to half a unit away are
rounded to, those just half a unit away if the number is even.
-/

namespace MockApi.Double

/-! ## Powers of two -/

theorem twoTo_eq (n : Nat) : twoTo n = 2 ^ n := rfl

theorem twoTo_pos (n : Nat) : 0 < twoTo n := Nat.two_pow_pos n

theorem twoTo_succ (n : Nat) : twoTo (n + 1) = 2 * twoTo n := by
  rw [twoTo_eq, twoTo_eq, Nat.pow_succ, Nat.mul_comm]

theorem twoTo_add (m n : Nat) : twoTo (m + n) = twoTo m * twoTo n := Nat.pow_add ..

/-! ## Powers with integer exponents -/

theorem natCast_twoTo (n : Nat) : ((twoTo n : Nat) : ℚ) = 2 ^ n := by
  rw [twoTo_eq, Nat.cast_pow, Nat.cast_ofNat]

theorem natCast_tenTo (n : Nat) : ((tenTo n : Nat) : ℚ) = 10 ^ n := by
  rw [tenTo, Nat.pow_eq, Nat.cast_pow, Nat.cast_ofNat]

/-- A power with an integer exponent is a quotient of powers of which one is one. -/
theorem zpow_eq_div {b : ℚ} (hb : b ≠ 0) (k : Int) : b ^ k = b ^ k.toNat / b ^ (-k).toNat := by
  rw [← zpow_natCast, ← zpow_natCast, ← zpow_sub₀ hb]
  congr 1
  omega

theorem two_zpow_le_ten_zpow {a b : Nat} (h : twoTo a ≤ tenTo b) :
    (2 : ℚ) ^ (a : Int) ≤ 10 ^ (b : Int) := by
  rw [zpow_natCast, zpow_natCast, ← natCast_twoTo, ← natCast_tenTo]
  exact Nat.cast_le.mpr h

/-! ## The exponent of a quotient -/

section Ratio

variable {num den : Nat}

theorem scaleRatio_div (num den : Nat) (e : Int) :
    ((scaleRatio num den e).1 : ℚ) / (scaleRatio num den e).2 = num / den / 2 ^ e := by
  rw [zpow_eq_div two_ne_zero, scaleRatio]
  push_cast
  rw [natCast_twoTo, natCast_twoTo]
  field_simp

theorem scaleRatio_pos (hden : 0 < den) (e : Int) : 0 < (scaleRatio num den e).2 :=
  Nat.mul_pos hden (twoTo_pos _)

theorem log2_bounds {n : Nat} (hn : 0 < n) :
    (2 : ℚ) ^ (n.log2 : Int) ≤ n ∧ (n : ℚ) < 2 ^ ((n.log2 : Int) + 1) := by
  have hlow : 2 ^ n.log2 ≤ n := Nat.log2_self_le hn.ne'
  have hhigh : n < 2 ^ (n.log2 + 1) := Nat.lt_log2_self
  exact ⟨by exact_mod_cast hlow, by exact_mod_cast hhigh⟩

/-- A quotient lies between the powers around the difference of the logarithms. -/
theorem quotient_bounds (hnum : 0 < num) (hden : 0 < den) :
    (2 : ℚ) ^ ((num.log2 : Int) - den.log2 - 1) ≤ num / den ∧
      (num : ℚ) / den < 2 ^ ((num.log2 : Int) - den.log2 + 1) := by
  have hden' : (0 : ℚ) < den := Nat.cast_pos.mpr hden
  obtain ⟨hnumlow, hnumhigh⟩ := log2_bounds hnum
  obtain ⟨hdenlow, hdenhigh⟩ := log2_bounds hden
  have hadd {i j k : Int} (h : i + j = k) : (2 : ℚ) ^ i * 2 ^ j = 2 ^ k := by
    rw [← zpow_add₀ two_ne_zero, h]
  constructor
  · rw [le_div_iff₀ hden']
    calc (2 : ℚ) ^ ((num.log2 : Int) - den.log2 - 1) * den
        ≤ 2 ^ ((num.log2 : Int) - den.log2 - 1) * 2 ^ ((den.log2 : Int) + 1) :=
          mul_le_mul_of_nonneg_left hdenhigh.le (by positivity)
      _ = 2 ^ (num.log2 : Int) := hadd (by ring)
      _ ≤ num := hnumlow
  · rw [div_lt_iff₀ hden']
    calc (num : ℚ) < 2 ^ ((num.log2 : Int) + 1) := hnumhigh
      _ = 2 ^ ((num.log2 : Int) - den.log2 + 1) * 2 ^ (den.log2 : Int) := (hadd (by ring)).symm
      _ ≤ 2 ^ ((num.log2 : Int) - den.log2 + 1) * den :=
          mul_le_mul_of_nonneg_left hdenlow (by positivity)

theorem scaleRatio_lt_iff (hden : 0 < den) (e : Int) :
    (scaleRatio num den e).1 < (scaleRatio num den e).2 ↔ (num : ℚ) / den < 2 ^ e := by
  have hpos : (0 : ℚ) < (scaleRatio num den e).2 := Nat.cast_pos.mpr (scaleRatio_pos hden e)
  have htwo : (0 : ℚ) < 2 ^ e := zpow_pos two_pos e
  rw [← Nat.cast_lt (α := ℚ), ← div_lt_one₀ hpos, scaleRatio_div, div_lt_one₀ htwo]

theorem floorLog2_bounds (hnum : 0 < num) (hden : 0 < den) :
    (2 : ℚ) ^ floorLog2 num den ≤ num / den ∧
      (num : ℚ) / den < 2 ^ (floorLog2 num den + 1) := by
  obtain ⟨hbelow, habove⟩ := quotient_bounds hnum hden
  simp only [floorLog2]
  split
  · rename_i hlt
    rw [sub_add_cancel]
    exact ⟨hbelow, (scaleRatio_lt_iff hden _).mp hlt⟩
  · rename_i hge
    exact ⟨not_lt.mp (mt (scaleRatio_lt_iff hden _).mpr hge), habove⟩

/-- The exponent of a quotient is the integer part of its logarithm. -/
theorem le_floorLog2_iff_zpow (hnum : 0 < num) (hden : 0 < den) (k : Int) :
    k ≤ floorLog2 num den ↔ (2 : ℚ) ^ k ≤ num / den := by
  obtain ⟨hlow, hhigh⟩ := floorLog2_bounds hnum hden
  constructor
  · exact fun hk ↦ (zpow_le_zpow_right₀ one_le_two hk).trans hlow
  · intro hk
    have hlt := (zpow_lt_zpow_iff_right₀ one_lt_two).mp (hk.trans_lt hhigh)
    omega

/-- At a natural number, without fractions. -/
theorem le_floorLog2_iff (hnum : 0 < num) (hden : 0 < den) (k : Nat) :
    (k : Int) ≤ floorLog2 num den ↔ twoTo k * den ≤ num := by
  have hden' : (0 : ℚ) < den := Nat.cast_pos.mpr hden
  rw [le_floorLog2_iff_zpow hnum hden, zpow_natCast, le_div_iff₀ hden', ← natCast_twoTo,
    ← Nat.cast_mul, Nat.cast_le]

end Ratio

/-! ## Rounding to a natural number -/

/-- The rationals between two ends. The ends belong to it if the number is even. -/
def between (n : Nat) (low high : ℚ) : Set ℚ :=
  if n % 2 = 0 then Set.Icc low high else Set.Ioo low high

theorem mem_between_iff {n : Nat} {low high q : ℚ} : q ∈ between n low high ↔
    (low < q ∨ low = q ∧ n % 2 = 0) ∧ (q < high ∨ q = high ∧ n % 2 = 0) := by
  unfold between
  split
  · rename_i heven
    simp [heven, le_iff_lt_or_eq]
  · rename_i hodd
    simp [hodd]

theorem between_of_even {n : Nat} (h : n % 2 = 0) (low high : ℚ) :
    between n low high = Set.Icc low high := if_pos h

theorem between_subset (n : Nat) (low high : ℚ) : between n low high ⊆ Set.Icc low high := by
  unfold between
  split
  · exact subset_rfl
  · exact Set.Ioo_subset_Icc_self

theorem ordConnected_between (n : Nat) (low high : ℚ) : (between n low high).OrdConnected := by
  unfold between
  split
  · exact Set.ordConnected_Icc
  · exact Set.ordConnected_Ioo

/-- A quotient rounds to the natural number in the middle of the unit interval around it. -/
theorem roundDiv_eq_iff_mem {num den n : Nat} (hden : 0 < den) :
    roundDiv num den = n ↔ (num : ℚ) / den ∈ between n (n - 1 / 2) (n + 1 / 2) := by
  have hden' : (0 : ℚ) < den := Nat.cast_pos.mpr hden
  have hlow : ((n : ℚ) - 1 / 2 < num / den ↔ 2 * n * den < 2 * num + den) ∧
      ((n : ℚ) - 1 / 2 = num / den ↔ 2 * n * den = 2 * num + den) := by
    rw [lt_div_iff₀ hden', eq_div_iff hden'.ne', ← Nat.cast_lt (α := ℚ), ← Nat.cast_inj (R := ℚ)]
    push_cast
    constructor <;> constructor <;> intro h <;> linarith
  have hhigh : ((num : ℚ) / den < n + 1 / 2 ↔ 2 * num < 2 * n * den + den) ∧
      ((num : ℚ) / den = n + 1 / 2 ↔ 2 * num = 2 * n * den + den) := by
    rw [div_lt_iff₀ hden', div_eq_iff hden'.ne', ← Nat.cast_lt (α := ℚ), ← Nat.cast_inj (R := ℚ)]
    push_cast
    constructor <;> constructor <;> intro h <;> linarith
  rw [mem_between_iff, hlow.1, hlow.2, hhigh.1, hhigh.2, roundDiv]
  have hr : num % den < den := Nat.mod_lt num hden
  have hnum : den * (num / den) + num % den = num := Nat.div_add_mod num den
  generalize num / den = q at *
  generalize num % den = r at *
  -- away from the integer part and its successor no rounding comes into question
  have hfar (j : Nat) : j = 0 ∨ 0 < j ∧ den ≤ j * den :=
    j.eq_zero_or_pos.imp_right fun hj ↦ ⟨hj, Nat.le_mul_of_pos_left den hj⟩
  rcases Nat.lt_or_ge q n with hlt | hge
  · obtain ⟨j, rfl⟩ := Nat.exists_eq_add_of_lt hlt
    have hmul : 2 * (q + j + 1) * den = 2 * (den * q) + 2 * (j * den) + 2 * den := by ring
    rw [hmul]
    generalize den * q = whole at *
    rcases hfar j with rfl | ⟨hj, hrest⟩
    · split_ifs <;> omega
    · generalize j * den = rest at *
      split_ifs <;> omega
  · obtain ⟨j, rfl⟩ := Nat.exists_eq_add_of_le hge
    have hsum : den * (n + j) = n * den + j * den := by ring
    have hmul : 2 * n * den = 2 * (n * den) := Nat.mul_assoc ..
    rw [hsum] at hnum
    rw [hmul]
    generalize n * den = whole at *
    rcases hfar j with rfl | ⟨hj, hrest⟩
    · split_ifs <;> omega
    · generalize j * den = rest at *
      split_ifs <;> omega

/-- A quotient below an even number rounds to it from half a unit below. -/
theorem roundDiv_eq_iff {num den bound : Nat} (heven : bound % 2 = 0) (hlt : num < bound * den) :
    roundDiv num den = bound ↔ (2 * bound - 1) * den ≤ 2 * num := by
  have hden : 0 < den := Nat.pos_of_ne_zero fun h ↦ by simp [h] at hlt
  have hbound : 0 < bound := Nat.pos_of_ne_zero fun h ↦ by simp [h] at hlt
  have hden' : (0 : ℚ) < den := Nat.cast_pos.mpr hden
  have habove : (num : ℚ) / den ≤ bound + 1 / 2 := by
    have hcast : (num : ℚ) < bound * den := by exact_mod_cast hlt
    rw [div_le_iff₀ hden']
    linarith
  rw [roundDiv_eq_iff_mem hden, between_of_even heven, Set.mem_Icc, and_iff_left habove,
    le_div_iff₀ hden', ← Nat.cast_le (α := ℚ), Nat.cast_mul, Nat.cast_sub (by omega)]
  push_cast
  constructor <;> intro h <;> linarith

/-! ## The two steps -/

section Steps

variable {num den : Nat}

/-- The exponent that a quotient is rounded at. -/
def unitExponent (num den : Nat) : Int := max (floorLog2 num den - 52) (-1074)

/-- The significand that a quotient is rounded to at an exponent, before a carry. -/
def unitSignificand (num den : Nat) (e : Int) : Nat :=
  roundDiv (scaleRatio num den e).1 (scaleRatio num den e).2

/-- A quotient is rounded to a significand at its exponent; a carry goes to the power above. -/
theorem ofRatio_eq (negative : Bool) (hnum : num ≠ 0) : ofRatio negative num den =
    if unitSignificand num den (unitExponent num den) = twoTo 53 then
      if 971 < unitExponent num den + 1 then .infinite negative
      else .finite negative (twoTo 52) (unitExponent num den + 1)
    else if 971 < unitExponent num den then .infinite negative
    else .finite negative (unitSignificand num den (unitExponent num den))
      (unitExponent num den) := by
  have hunit : max (floorLog2 num den - 52) (-1074) = unitExponent num den := rfl
  have hround (e : Int) : roundDiv (scaleRatio num den e).1 (scaleRatio num den e).2 =
      unitSignificand num den e := rfl
  rw [ofRatio, if_neg hnum, hunit]
  simp only [hround]
  by_cases hcarry : unitSignificand num den (unitExponent num den) = twoTo 53
  · rw [if_pos hcarry, if_pos hcarry]
  · rw [if_neg hcarry, if_neg hcarry]

end Steps

end MockApi.Double
