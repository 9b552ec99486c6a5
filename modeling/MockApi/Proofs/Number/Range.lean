import MockApi.Number.Basic
import MockApi.Proofs.Number.Quotient

/-!
# The range of doubles

A quotient of natural numbers rounds to an infinity exactly if it is at least `2 ^ 1024 - 2 ^ 970`,
halfway between the greatest double and the power of two above it, where the tie goes to the power.
An integer of that size is no double, and a quotient of integers of that size is none.

The argument compares with powers of two only: the exponent that the rounding works with is the
integer part of a logarithm, and at the one exponent where the significand may still carry over, the
carry is a question of one comparison.
-/

namespace MockApi.Double

/-- The least real that is too large for a double. -/
def limit : Nat := (twoTo 54 - 1) * twoTo 970

theorem limit_pos : 0 < limit := Nat.mul_pos (by decide) (twoTo_pos 970)

/-! ## Overflow -/

/-- Rounding gives an infinity if the exponent is too large, at once or after a carry. -/
theorem isInfinite_ofRatio_iff_exponent {negative : Bool} {num den : Nat} (hnum : num ≠ 0) :
    (ofRatio negative num den).isInfinite = true ↔ 971 < unitExponent num den ∨
      unitExponent num den = 971 ∧ unitSignificand num den 971 = twoTo 53 := by
  rw [ofRatio_eq negative hnum]
  generalize unitExponent num den = e
  by_cases hcarry : unitSignificand num den e = twoTo 53
  · rw [if_pos hcarry]
    split
    · rename_i hlarge
      simp only [isInfinite, true_iff]
      rcases Int.lt_or_eq_of_le (by omega : 971 ≤ e) with hlt | rfl
      · exact .inl hlt
      · exact .inr ⟨rfl, hcarry⟩
    · simp only [isInfinite, Bool.false_eq_true, false_iff]
      omega
  · rw [if_neg hcarry]
    split
    · rename_i hlarge
      simp only [isInfinite, true_iff]
      exact .inl hlarge
    · simp only [isInfinite, Bool.false_eq_true, false_iff]
      rintro (hlt | ⟨rfl, heq⟩)
      · omega
      · exact hcarry heq

/-- **Overflow.** A quotient rounds to an infinity exactly if it is at least the limit. -/
theorem isInfinite_ofRatio_iff {negative : Bool} {num den : Nat} (hden : 0 < den) :
    (ofRatio negative num den).isInfinite = true ↔ limit * den ≤ num := by
  have hlimit : limit * den = (twoTo 54 - 1) * (twoTo 970 * den) := Nat.mul_assoc ..
  rcases Nat.eq_zero_or_pos num with rfl | hnum
  · have hpos : 0 < limit * den := Nat.mul_pos limit_pos hden
    simp only [ofRatio, if_true, zeroOf, isInfinite, Bool.false_eq_true, false_iff]
    omega
  -- in units of `2 ^ 970` times the denominator, the powers around the limit are small numbers
  have hpower (k : Nat) : twoTo (k + 970) * den = twoTo k * (twoTo 970 * den) := by
    rw [twoTo_add, Nat.mul_assoc]
  have htop := le_floorLog2_iff hnum hden (54 + 970)
  have hmiddle := le_floorLog2_iff hnum hden (53 + 970)
  have hscale : scaleRatio num den 971 = (num, 2 * (twoTo 970 * den)) := by
    have hone : twoTo 0 = 1 := rfl
    have hnext : twoTo 971 = 2 * twoTo 970 := twoTo_succ 970
    simp only [scaleRatio, Int.reduceNeg, Int.reduceToNat, hone, hnext, Nat.mul_one]
    rw [Nat.mul_comm den, Nat.mul_assoc]
  have h53 : twoTo 53 = 2 ^ 53 := rfl
  have h54 : twoTo 54 = 2 ^ 54 := rfl
  rw [hpower] at htop hmiddle
  rw [isInfinite_ofRatio_iff_exponent hnum.ne', hlimit, unitExponent, unitSignificand, hscale]
  generalize twoTo 970 * den = unit at *
  rw [h54] at htop
  rw [h53] at hmiddle
  rw [h53, h54]
  dsimp only
  by_cases hlarge : 2 ^ 54 * unit ≤ num
  · have hexponent := htop.mpr hlarge
    constructor
    · intro _
      omega
    · intro _
      exact .inl (by omega)
  by_cases hmedium : 2 ^ 53 * unit ≤ num
  · have hexponent := hmiddle.mpr hmedium
    have hbound : ¬((54 + 970 : Nat) : Int) ≤ floorLog2 num den := fun h ↦ hlarge (htop.mp h)
    have hround := roundDiv_eq_iff (by decide : 2 ^ 53 % 2 = 0)
      (by omega : num < 2 ^ 53 * (2 * unit))
    rw [hround]
    omega
  · have hbound : ¬((53 + 970 : Nat) : Int) ≤ floorLog2 num den := fun h ↦ hmedium (hmiddle.mp h)
    omega

theorem ofRatio_ne_nan (negative : Bool) (num den : Nat) : ofRatio negative num den ≠ .nan := by
  unfold ofRatio
  split
  · simp [zeroOf]
  · dsimp only
    split <;> split <;> simp

/-- An integer is a double unless it reaches the limit. -/
theorem ofInt?_eq_none_iff {n : Int} : ofInt? n = none ↔ limit ≤ n.natAbs := by
  have hinfinite : (ofRatio (n < 0) n.natAbs 1).isInfinite = true ↔ limit ≤ n.natAbs := by
    rw [isInfinite_ofRatio_iff Nat.one_pos, Nat.mul_one]
  rw [← hinfinite, ofInt?]
  split
  · rename_i sign heq
    simp [heq, isInfinite]
  · rename_i hfinite
    cases heq : ofRatio (n < 0) n.natAbs 1 with
    | infinite sign => exact absurd heq (hfinite sign)
    | nan | finite => simp [isInfinite]

theorem ne_nan_of_ofInt? {n : Int} {x : Double} (h : ofInt? n = some x) : x ≠ .nan := by
  rintro rfl
  unfold ofInt? at h
  split at h
  · cases h
  · exact ofRatio_ne_nan _ _ _ (Option.some.inj h)

end MockApi.Double

namespace MockApi.Number

/-- An integer has no answer to whether it is NaN exactly if it reaches the limit. -/
theorem testNaN_int (n : Int) : (Number.int n).testNaN =
    if Double.limit ≤ n.natAbs then .error .integerTooLarge else .ok false := by
  cases h : Double.ofInt? n with
  | none =>
    rw [if_pos (Double.ofInt?_eq_none_iff.mp h)]
    simp only [testNaN, toDouble, h]
    rfl
  | some x =>
    have hsmall : ¬Double.limit ≤ n.natAbs := by
      rw [← Double.ofInt?_eq_none_iff, h]
      simp
    have hnan : x.isNaN = false := by
      rw [Bool.eq_false_iff, ne_eq, Double.isNaN_iff]
      exact Double.ne_nan_of_ofInt? h
    rw [if_neg hsmall]
    simp only [testNaN, toDouble, h]
    exact congrArg Except.ok hnan

/-- A quotient of integers is a double unless it reaches the limit. -/
theorem divInt_eq {m n : Int} (hn : n ≠ 0) : divInt m n =
    if Double.limit * n.natAbs ≤ m.natAbs then .error .integerTooLarge
    else .ok (.double (Double.ofRatio ((m < 0) != (n < 0)) m.natAbs n.natAbs)) := by
  have hinfinite : (Double.ofRatio ((m < 0) != (n < 0)) m.natAbs n.natAbs).isInfinite = true ↔
      Double.limit * n.natAbs ≤ m.natAbs :=
    Double.isInfinite_ofRatio_iff (Int.natAbs_pos.mpr hn)
  unfold divInt
  split
  · rename_i sign heq
    rw [if_pos (hinfinite.mp (by rw [heq]; rfl))]
  · rename_i hfinite
    rw [if_neg fun hlarge ↦ ?_]
    have htrue := hinfinite.mpr hlarge
    cases heq : Double.ofRatio ((m < 0) != (n < 0)) m.natAbs n.natAbs with
    | infinite sign => exact absurd heq (hfinite sign)
    | nan | finite => simp [heq, Double.isInfinite] at htrue

end MockApi.Number
