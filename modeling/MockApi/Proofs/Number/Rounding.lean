import MockApi.Proofs.Number.Decimal

/-!
# What rounds to a double

The rationals that round to a positive double make up an interval around it, its cell. The cell
reaches half a unit of the last bit to either side, except below a power of two, where the doubles
lie twice as close and it reaches a quarter; the ends belong to it if the significand is even. This
is the interval that the search for short decimals works with, and here it is shown to be what the
rounding takes to the double, whether a quotient or a decimal is rounded.

Each double has one significand of 53 bits, or of fewer at the least exponent. All that rounding
gives is in this form.
-/

namespace MockApi.Double

/-! ## Rounding to a double -/

/-- The significands and exponents of doubles: 53 bits, or fewer at the least exponent. -/
structure IsCanonical (m : Nat) (e : Int) : Prop where
  /-- There are no more than 53 bits. -/
  lt : m < twoTo 53
  /-- There are no fewer, or the exponent is least. -/
  full : twoTo 52 ≤ m ∨ e = -1074
  /-- No exponent is less. -/
  least : -1074 ≤ e
  /-- No exponent is greater. -/
  greatest : e ≤ 971

/-- The rationals around a positive double, up to the ends of its rounding interval. -/
def cell (m : Nat) (e : Int) : Set ℚ :=
  {q | q / 2 ^ (e - 2) ∈ between m (roundingInterval m e).1 (roundingInterval m e).2}

section Cell

variable {m : Nat} {e : Int} {q : ℚ}

theorem mem_cell_iff : q ∈ cell m e ↔
    q / 2 ^ (e - 2) ∈ between m (roundingInterval m e).1 (roundingInterval m e).2 := Iff.rfl

theorem between_mul_four {n : Nat} {low high : ℚ} :
    4 * q ∈ between n (4 * low) (4 * high) ↔ q ∈ between n low high := by
  have hfour : (4 : ℚ) ≠ 0 := by norm_num
  simp only [mem_between_iff, mul_lt_mul_iff_of_pos_left (show (0 : ℚ) < 4 by norm_num),
    mul_right_inj' hfour]

theorem div_zpow_sub_two (q : ℚ) (e : Int) : q / 2 ^ (e - 2) = 4 * (q / 2 ^ e) := by
  rw [zpow_sub₀ two_ne_zero]
  field_simp
  norm_num

/-- Above a power of two, the rationals below it that round to it reach half as far as usual. -/
theorem mem_cell_iff_of_boundary (hm : m = twoTo 52) (he : e ≠ -1074) :
    q ∈ cell m e ↔ q / 2 ^ e ∈ between m (m - 1 / 4) (m + 1 / 2) := by
  have hpos : 1 ≤ 4 * m := by rw [hm]; decide
  have hlow : ((roundingInterval m e).1 : ℚ) = 4 * (m - 1 / 4) := by
    rw [roundingInterval, if_pos ⟨hm, he⟩, Nat.cast_sub hpos]
    push_cast
    ring
  have hhigh : ((roundingInterval m e).2 : ℚ) = 4 * (m + 1 / 2) := by
    rw [roundingInterval]
    push_cast
    ring
  rw [mem_cell_iff, hlow, hhigh, div_zpow_sub_two, between_mul_four]

theorem mem_cell_iff_of_not_boundary (hm : 0 < m) (h : ¬(m = twoTo 52 ∧ e ≠ -1074)) :
    q ∈ cell m e ↔ q / 2 ^ e ∈ between m (m - 1 / 2) (m + 1 / 2) := by
  have hpos : 2 ≤ 4 * m := by omega
  have hlow : ((roundingInterval m e).1 : ℚ) = 4 * (m - 1 / 2) := by
    rw [roundingInterval, if_neg h, Nat.cast_sub hpos]
    push_cast
    ring
  have hhigh : ((roundingInterval m e).2 : ℚ) = 4 * (m + 1 / 2) := by
    rw [roundingInterval]
    push_cast
    ring
  rw [mem_cell_iff, hlow, hhigh, div_zpow_sub_two, between_mul_four]

end Cell

section Ratio

variable {negative : Bool} {num den m : Nat} {e : Int}

/-- At its exponent a quotient has 53 bits in front of the point, or fewer at the least one. -/
theorem unitExponent_eq_iff (hnum : 0 < num) (hden : 0 < den) : unitExponent num den = e ↔
    -1074 ≤ e ∧ ((2 : ℚ) ^ 52 ≤ num / den / 2 ^ e ∨ e = -1074) ∧
      (num : ℚ) / den / 2 ^ e < 2 ^ 53 := by
  have htwo : (0 : ℚ) < 2 ^ e := zpow_pos two_pos e
  have hscale (k : Nat) : (2 : ℚ) ^ k ≤ num / den / 2 ^ e ↔ e + k ≤ floorLog2 num den := by
    rw [le_floorLog2_iff_zpow hnum hden, le_div_iff₀ htwo, ← zpow_natCast,
      ← zpow_add₀ two_ne_zero, add_comm]
  rw [← not_le, hscale, hscale, unitExponent]
  omega

theorem unitSignificand_eq_iff (hden : 0 < den) : unitSignificand num den e = m ↔
    (num : ℚ) / den / 2 ^ e ∈ between m (m - 1 / 2) (m + 1 / 2) := by
  rw [unitSignificand, roundDiv_eq_iff_mem (scaleRatio_pos hden e), scaleRatio_div]

/-- A quotient is rounded to a significand at its exponent, or to the power above after a carry. -/
theorem ofRatio_cases {sign : Bool} (hnum : 0 < num) :
    ofRatio negative num den = .finite sign m e ↔ sign = negative ∧ e ≤ 971 ∧
      (unitExponent num den = e ∧ unitSignificand num den e = m ∧ m ≠ twoTo 53 ∨
        unitExponent num den = e - 1 ∧ unitSignificand num den (e - 1) = twoTo 53 ∧
          m = twoTo 52) := by
  rw [ofRatio_eq negative hnum.ne']
  generalize unitExponent num den = u
  by_cases hcarry : unitSignificand num den u = twoTo 53
  · rw [if_pos hcarry]
    constructor
    · intro heq
      split at heq
      · cases heq
      · obtain ⟨rfl, rfl, rfl⟩ := Double.finite.inj heq
        refine ⟨rfl, by omega, .inr ⟨(add_sub_cancel_right u 1).symm, ?_, rfl⟩⟩
        rwa [add_sub_cancel_right]
    · rintro ⟨rfl, he, ⟨rfl, rfl, hne⟩ | ⟨rfl, -, rfl⟩⟩
      · exact absurd hcarry hne
      · rw [sub_add_cancel, if_neg (by omega)]
  · rw [if_neg hcarry]
    constructor
    · intro heq
      split at heq
      · cases heq
      · obtain ⟨rfl, rfl, rfl⟩ := Double.finite.inj heq
        exact ⟨rfl, by omega, .inl ⟨rfl, rfl, hcarry⟩⟩
    · rintro ⟨rfl, he, ⟨rfl, rfl, -⟩ | ⟨rfl, hcarry', -⟩⟩
      · rw [if_neg (by omega)]
      · exact absurd hcarry' hcarry

/-- **What rounds to a positive double.** Of the quotients, just those in its cell. -/
theorem ofRatio_eq_finite_iff (hnum : 0 < num) (hden : 0 < den) (hm : 0 < m)
    (h : IsCanonical m e) :
    ofRatio negative num den = .finite negative m e ↔ (num : ℚ) / den ∈ cell m e := by
  have hhalf : (num : ℚ) / den / 2 ^ (e - 1) = 2 * (num / den / 2 ^ e) := by
    rw [zpow_sub_one₀ two_ne_zero]
    field_simp
  rw [ofRatio_cases hnum, and_iff_right rfl, and_iff_right h.greatest,
    unitSignificand_eq_iff hden, unitSignificand_eq_iff hden, unitExponent_eq_iff hnum hden,
    unitExponent_eq_iff hnum hden, hhalf]
  have h52 : ((twoTo 52 : Nat) : ℚ) = 2 ^ 52 := natCast_twoTo 52
  have h53 : ((twoTo 53 : Nat) : ℚ) = 2 ^ 53 := natCast_twoTo 53
  have hnext {a b : Nat} (hab : a < b) : (a : ℚ) + 1 ≤ b := by exact_mod_cast hab
  by_cases hboundary : m = twoTo 52 ∧ e ≠ -1074
  · -- below the power of two, the exponent is one less and rounding carries over
    obtain ⟨rfl, he⟩ := hboundary
    have hleast := h.least
    rw [mem_cell_iff_of_boundary rfl he, h53, between_of_even rfl, between_of_even rfl,
      between_of_even rfl, h52]
    generalize (num : ℚ) / den / 2 ^ e = s
    simp only [Set.mem_Icc]
    constructor
    · rintro (⟨⟨-, hfull, -⟩, ⟨-, hhigh⟩, -⟩ | ⟨⟨-, -, hlt⟩, ⟨hlow, -⟩, -⟩)
      · have hlow := hfull.resolve_right he
        exact ⟨by linarith, hhigh⟩
      · exact ⟨by linarith, by linarith⟩
    · rintro ⟨hlow, hhigh⟩
      by_cases hs : 2 ^ 52 ≤ s
      · exact .inl ⟨⟨hleast, .inl hs, by linarith⟩, ⟨by linarith, hhigh⟩, by decide⟩
      · exact .inr ⟨⟨by omega, .inl (by linarith), by linarith⟩, ⟨by linarith, by linarith⟩,
          trivial⟩
  · rw [mem_cell_iff_of_not_boundary hm hboundary]
    generalize (num : ℚ) / den / 2 ^ e = s
    constructor
    · rintro (⟨-, hs, -⟩ | ⟨⟨hleast, -, -⟩, -, rfl⟩)
      · exact hs
      · have he : e ≠ -1074 := by omega
        exact absurd ⟨rfl, he⟩ hboundary
    · intro hs
      obtain ⟨hlow, hhigh⟩ := between_subset _ _ _ hs
      have hlt := hnext h.lt
      refine .inl ⟨⟨h.least, ?_, by linarith⟩, hs, h.lt.ne⟩
      by_cases he : e = -1074
      · exact .inr he
      · have hfull : twoTo 52 < m :=
          lt_of_le_of_ne (h.full.resolve_right he) fun heq ↦ hboundary ⟨heq.symm, he⟩
        have habove := hnext hfull
        exact .inl (by linarith)

theorem isCanonical_of_zeroOf {sign : Bool} (h : zeroOf negative = .finite sign m e) :
    IsCanonical m e := by
  obtain ⟨-, rfl, rfl⟩ := Double.finite.inj h
  exact ⟨by decide, .inr rfl, by decide, by decide⟩

/-- What a quotient rounds to is in the form of doubles. -/
theorem isCanonical_of_ofRatio {sign : Bool} (hden : 0 < den)
    (h : ofRatio negative num den = .finite sign m e) : IsCanonical m e := by
  rcases Nat.eq_zero_or_pos num with rfl | hnum
  · exact isCanonical_of_zeroOf h
  obtain ⟨-, he, ⟨hunit, hsignificand, hne⟩ | ⟨hunit, -, rfl⟩⟩ := (ofRatio_cases hnum).mp h
  · obtain ⟨hleast, hfull, hlt⟩ := (unitExponent_eq_iff hnum hden).mp hunit
    obtain ⟨hlow, hhigh⟩ := between_subset _ _ _ ((unitSignificand_eq_iff hden).mp hsignificand)
    have hmax : m < 2 ^ 53 + 1 := by
      have hcast : (m : ℚ) < (2 ^ 53 + 1 : Nat) := by
        push_cast
        linarith
      exact_mod_cast hcast
    refine ⟨?_, hfull.imp_left fun hs ↦ ?_, hleast, he⟩
    · exact lt_of_le_of_ne (Nat.le_of_lt_succ hmax) hne
    · have hcast : ((2 ^ 52 : Nat) : ℚ) < (m + 1 : Nat) := by
        push_cast
        linarith
      exact Nat.le_of_lt_succ (Nat.cast_lt.mp hcast)
  · obtain ⟨hleast, -, -⟩ := (unitExponent_eq_iff hnum hden).mp hunit
    exact ⟨by decide, .inl le_rfl, by omega, he⟩

end Ratio

/-! ## Reading a decimal -/

section Decimal

variable {negative : Bool} {m c : Nat} {e k : Int} {q : ℚ}

/-- The value of a decimal lies between the powers of ten that its digits tell. -/
theorem decimal_bounds (hc : 0 < c) (k : Int) :
    (10 : ℚ) ^ (((Nat.toDigits 10 c).length : Int) + k - 1) ≤ c * 10 ^ k ∧
      (c : ℚ) * 10 ^ k < 10 ^ (((Nat.toDigits 10 c).length : Int) + k) := by
  have hpos : (0 : ℚ) < 10 ^ k := zpow_pos (by norm_num) k
  have hlength : 0 < (Nat.toDigits 10 c).length := List.length_pos_of_ne_nil (by simp)
  have hlow : 10 ^ ((Nat.toDigits 10 c).length - 1) ≤ c :=
    tenTo_le_of_lt_length (by omega) hc.ne'
  have hhigh : c < 10 ^ (Nat.toDigits 10 c).length :=
    (Nat.length_toDigits_le_iff (by decide) hlength).mp le_rfl
  have hten : (10 : ℚ) ≠ 0 := by norm_num
  constructor
  · have hsplit : ((Nat.toDigits 10 c).length : Int) + k - 1 =
        ((Nat.toDigits 10 c).length - 1 : Nat) + k := by omega
    rw [hsplit, zpow_add₀ hten, zpow_natCast]
    exact mul_le_mul_of_nonneg_right (by exact_mod_cast hlow) hpos.le
  · rw [zpow_add₀ hten, zpow_natCast]
    exact mul_lt_mul_of_pos_right (by exact_mod_cast hhigh) hpos

/-- What rounds to a positive double is neither far below one nor far above. -/
theorem cell_subset (hm : 0 < m) (h : IsCanonical m e) :
    cell m e ⊆ Set.Ico (2 ^ (-1075 : Int)) (2 ^ (1024 : Int)) := by
  intro q hq
  have htwo : (0 : ℚ) < 2 ^ (e - 2) := zpow_pos two_pos _
  obtain ⟨hlow, hhigh⟩ := between_subset _ _ _ (mem_cell_iff.mp hq)
  have hleast : 2 ≤ (roundingInterval m e).1 := by
    dsimp only [roundingInterval]
    split <;> omega
  have hgreatest : (roundingInterval m e).2 < 2 ^ 55 := by
    have hlt : m < 2 ^ 53 := h.lt
    dsimp only [roundingInterval]
    omega
  rw [le_div_iff₀ htwo] at hlow
  rw [div_le_iff₀ htwo] at hhigh
  constructor
  · calc (2 : ℚ) ^ (-1075 : Int) ≤ 2 ^ (e - 1) :=
          zpow_le_zpow_right₀ one_le_two (by have := h.least; omega)
      _ = 2 * 2 ^ (e - 2) := by
          rw [← zpow_one_add₀ two_ne_zero]
          congr 1
          ring
      _ ≤ (roundingInterval m e).1 * 2 ^ (e - 2) :=
          mul_le_mul_of_nonneg_right (by exact_mod_cast hleast) htwo.le
      _ ≤ q := hlow
  · calc q ≤ (roundingInterval m e).2 * 2 ^ (e - 2) := hhigh
      _ < 2 ^ 55 * 2 ^ (e - 2) := mul_lt_mul_of_pos_right (by exact_mod_cast hgreatest) htwo
      _ = 2 ^ (e + 53) := by
          rw [← zpow_natCast, ← zpow_add₀ two_ne_zero]
          congr 1
          push_cast
          ring
      _ ≤ 2 ^ (1024 : Int) :=
          zpow_le_zpow_right₀ one_le_two (by have := h.greatest; omega)

/-- A decimal that reads as a positive double is not zero. -/
theorem pos_of_mem_cell (hm : 0 < m) (h : IsCanonical m e) (hmem : (c : ℚ) * 10 ^ k ∈ cell m e) :
    0 < c := by
  by_contra hzero
  obtain ⟨hlow, -⟩ := cell_subset hm h hmem
  rw [Nat.eq_zero_of_not_pos hzero, Nat.cast_zero, zero_mul] at hlow
  exact absurd hlow (not_le.mpr (zpow_pos two_pos _))

/-- **What is read as a positive double.** Of the decimals, just those in its cell. -/
theorem ofDecimal_eq_finite_iff (hm : 0 < m) (h : IsCanonical m e) :
    ofDecimal negative c k = .finite negative m e ↔ (c : ℚ) * 10 ^ k ∈ cell m e := by
  have hten : (1 : ℚ) ≤ 10 := by norm_num
  unfold ofDecimal
  dsimp only
  split
  · rename_i hzero
    exact iff_of_false (fun heq ↦ hm.ne (Double.finite.inj heq).2.1)
      fun hmem ↦ (pos_of_mem_cell hm h hmem).ne' hzero
  rename_i hne
  obtain ⟨hbelow, habove⟩ := decimal_bounds (Nat.pos_of_ne_zero hne) k
  split
  · rename_i hlarge
    refine iff_of_false Double.noConfusion fun hmem ↦ ?_
    obtain ⟨-, hhigh⟩ := cell_subset hm h hmem
    have hpower : (2 : ℚ) ^ (1024 : Int) ≤ 10 ^ (310 : Int) :=
      two_zpow_le_ten_zpow (by decide +kernel : twoTo 1024 ≤ tenTo 310)
    have hmono := zpow_le_zpow_right₀ hten
      (by omega : (310 : Int) ≤ ((Nat.toDigits 10 c).length : Int) + k - 1)
    exact absurd (hpower.trans (hmono.trans hbelow)) (not_le.mpr hhigh)
  split
  · rename_i hsmall
    refine iff_of_false (fun heq ↦ hm.ne (Double.finite.inj heq).2.1) fun hmem ↦ ?_
    obtain ⟨hlow, -⟩ := cell_subset hm h hmem
    have hpower : (10 : ℚ) ^ (-331 : Int) ≤ 2 ^ (-1075 : Int) := by
      rw [zpow_neg, zpow_neg]
      exact inv_anti₀ (zpow_pos two_pos _)
        (two_zpow_le_ten_zpow (by decide +kernel : twoTo 1075 ≤ tenTo 331))
    have hmono := zpow_le_zpow_right₀ hten
      (by omega : ((Nat.toDigits 10 c).length : Int) + k ≤ -331)
    exact absurd (habove.trans_le (hmono.trans hpower)) (not_lt.mpr hlow)
  · have htenTo (n : Nat) : 0 < tenTo n := Nat.pow_pos (by decide)
    rw [ofRatio_eq_finite_iff (Nat.mul_pos (Nat.pos_of_ne_zero hne) (htenTo _)) (htenTo _) hm h]
    have hvalue : ((c * tenTo k.toNat : Nat) : ℚ) / (tenTo (-k).toNat : Nat) = c * 10 ^ k := by
      rw [Nat.cast_mul, natCast_tenTo, natCast_tenTo, mul_div_assoc, ← zpow_eq_div (by norm_num)]
    rw [hvalue]

/-- What a decimal is read as is in the form of doubles. -/
theorem isCanonical_of_ofDecimal {sign : Bool} (h : ofDecimal negative c k = .finite sign m e) :
    IsCanonical m e := by
  unfold ofDecimal at h
  dsimp only at h
  split at h
  · exact isCanonical_of_zeroOf h
  split at h
  · cases h
  split at h
  · exact isCanonical_of_zeroOf h
  · exact isCanonical_of_ofRatio (Nat.pow_pos (by decide)) h

end Decimal

end MockApi.Double
