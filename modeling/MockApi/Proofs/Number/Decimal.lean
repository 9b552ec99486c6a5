import MockApi.Number.Numeral
import MockApi.Proofs.Number.Range

/-!
# Decimals beyond the doubles

Reading a decimal rounds it to the nearest double, and a decimal of at least `2 ^ 1024 - 2 ^ 970`
rounds to an infinity. The reading decides decimals far outside the range by their number of digits
alone; that the shortcut decides them correctly is part of what is shown here.
-/

namespace MockApi

namespace Double

/-- A number with many digits is large. -/
theorem tenTo_le_of_lt_length {k n : Nat} (h : k < (Nat.toDigits 10 n).length) (hn : n ≠ 0) :
    tenTo k ≤ n := by
  by_contra hlt
  rcases Nat.eq_zero_or_pos k with rfl | hk
  · exact hlt (Nat.pos_of_ne_zero hn)
  · have hle := (Nat.length_toDigits_le_iff (by decide) hk).mpr (Nat.lt_of_not_le hlt)
    omega

theorem limit_le_tenTo : limit ≤ tenTo 309 := by decide +kernel

/-- **Which decimals are read as infinities.** Those that are at least the limit. -/
theorem isInfinite_ofDecimal_iff {negative : Bool} {coefficient : Nat} {exponent : Int} :
    (ofDecimal negative coefficient exponent).isInfinite = true ↔
      limit * tenTo (-exponent).toNat ≤ coefficient * tenTo exponent.toNat := by
  have hpos (k : Nat) : 0 < tenTo k := Nat.pow_pos (by decide)
  have hadd (j k : Nat) : tenTo (j + k) = tenTo j * tenTo k := Nat.pow_add ..
  have hmono {j k : Nat} (h : j ≤ k) : tenTo j ≤ tenTo k := Nat.pow_le_pow_right (by decide) h
  unfold ofDecimal
  dsimp only
  split
  · rename_i hzero
    have hlimit : 0 < limit * tenTo (-exponent).toNat := Nat.mul_pos limit_pos (hpos _)
    rw [hzero, Nat.zero_mul]
    simp only [zeroOf, isInfinite, Bool.false_eq_true, false_iff]
    omega
  rename_i hne
  split
  · -- there is one digit more than the limit has
    rename_i hlarge
    simp only [isInfinite, true_iff]
    obtain ⟨k, hk⟩ : ∃ k, (Nat.toDigits 10 coefficient).length = k + 1 :=
      Nat.exists_eq_succ_of_ne_zero (by simp)
    calc limit * tenTo (-exponent).toNat
        ≤ tenTo 309 * tenTo (-exponent).toNat := Nat.mul_le_mul_right _ limit_le_tenTo
      _ = tenTo (309 + (-exponent).toNat) := (hadd _ _).symm
      _ ≤ tenTo (k + exponent.toNat) := hmono (by omega)
      _ = tenTo k * tenTo exponent.toNat := hadd _ _
      _ ≤ coefficient * tenTo exponent.toNat :=
        Nat.mul_le_mul_right _ (tenTo_le_of_lt_length (by omega) hne)
  split
  · -- the decimal is below one
    rename_i hsmall
    have hexponent : exponent.toNat = 0 := by omega
    have hcoefficient : coefficient < tenTo (-exponent).toNat :=
      (Nat.length_toDigits_le_iff (by decide) (by omega)).mp (by omega)
    have hlimit : tenTo (-exponent).toNat ≤ limit * tenTo (-exponent).toNat :=
      Nat.le_mul_of_pos_left _ limit_pos
    have hone : tenTo 0 = 1 := rfl
    rw [hexponent, hone, Nat.mul_one]
    simp only [zeroOf, isInfinite, Bool.false_eq_true, false_iff]
    omega
  · exact isInfinite_ofRatio_iff (hpos _)

theorem ofDecimal_ne_nan (negative : Bool) (coefficient : Nat) (exponent : Int) :
    ofDecimal negative coefficient exponent ≠ .nan := by
  unfold ofDecimal
  dsimp only
  split
  · simp [zeroOf]
  split
  · simp
  split
  · simp [zeroOf]
  · exact ofRatio_ne_nan _ _ _

end Double

namespace Numeral.Decimal

/-- The digits of a decimal, read as one number. -/
def coefficient (d : Decimal) : Nat := Text.digitsValue (d.whole ++ d.fraction.getD [])

/-- The power of ten that the coefficient counts. -/
def scale (d : Decimal) : Int := d.exponent.getD 0 - (d.fraction.getD []).length

/-- The decimal, its sign apart, is at least the limit of doubles. -/
def Overflows (d : Decimal) : Prop :=
  Double.limit * Double.tenTo (-d.scale).toNat ≤ d.coefficient * Double.tenTo d.scale.toNat

theorem isInfinite_toDouble_iff {d : Decimal} : d.toDouble.isInfinite = true ↔ d.Overflows :=
  Double.isInfinite_ofDecimal_iff

theorem toDouble_ne_nan (d : Decimal) : d.toDouble ≠ .nan := Double.ofDecimal_ne_nan _ _ _

end Numeral.Decimal

end MockApi
