import Mathlib.Algebra.Order.Field.Power
import Mathlib.Algebra.Order.Field.Rat
import Mathlib.Order.WithBot
import Mathlib.Tactic.Ring
import MockApi.Number.Basic

/-!
# The order of numbers

Numbers are compared exactly: an integer stands for itself, a finite double for the rational that
its significand and its exponent make, and the infinities for the ends of the order. The comparison
works on integers, after scaling both sides to the smaller exponent; here it is shown to be the
comparison of the exact values, whatever kinds of numbers meet. So equality and order of numbers
have the laws of a linear order, NaN apart, which has no exact value.
-/

namespace MockApi

/-- What numbers stand for: the rationals with an infinity at either end. -/
abbrev Extended := WithBot (WithTop ℚ)

namespace Double

/-- The exact value of a double; NaN has none. -/
def extended? : Double → Option Extended
  | .nan => none
  | .infinite negative => some (if negative then ⊥ else ⊤)
  | .finite negative m e => some (((signed negative m : ℚ) * 2 ^ e : ℚ) : WithTop ℚ)

/-- Scaling to a smaller exponent keeps the value. -/
theorem scaled_eq {e e' : Int} (h : e' ≤ e) (m : Int) :
    ((m * twoTo (e - e').toNat : Int) : ℚ) * 2 ^ e' = m * 2 ^ e := by
  have hpow : ((twoTo (e - e').toNat : Int) : ℚ) = 2 ^ (e - e') := by
    rw [twoTo, Nat.pow_eq]
    push_cast
    rw [← zpow_natCast, Int.toNat_of_nonneg (by omega)]
  rw [Int.cast_mul, hpow, mul_assoc, ← zpow_add₀ two_ne_zero, sub_add_cancel]

theorem compareScaled_eq (m₁ e₁ m₂ e₂ : Int) :
    compareScaled m₁ e₁ m₂ e₂ = cmp ((m₁ : ℚ) * 2 ^ e₁) (m₂ * 2 ^ e₂) := by
  have hpos : (0 : ℚ) < 2 ^ min e₁ e₂ := zpow_pos two_pos _
  rw [← scaled_eq (Int.min_le_left e₁ e₂) m₁, ← scaled_eq (Int.min_le_right e₁ e₂) m₂,
    cmp_mul_pos_right hpos, Int.cast_strictMono.cmp_map_eq, cmp_eq_compare]
  rfl

theorem cmp_coe (p q : ℚ) : cmp ((p : WithTop ℚ) : Extended) (q : WithTop ℚ) = cmp p q := by
  rw [WithBot.coe_strictMono.cmp_map_eq, WithTop.coe_strictMono.cmp_map_eq]

/-- An infinity is beyond all rationals. -/
theorem cmp_infinite (negative : Bool) (q : ℚ) :
    cmp (if negative then ⊥ else ⊤ : Extended) (q : WithTop ℚ) = if negative then .lt else .gt := by
  cases negative with
  | true => exact (WithBot.bot_lt_coe _).cmp_eq_lt
  | false => exact (WithBot.coe_lt_coe.mpr (WithTop.coe_lt_top q)).cmp_eq_gt

/-- Doubles are compared by their exact values. -/
theorem compare?_eq (x y : Double) :
    x.compare? y = x.extended?.bind fun u ↦ y.extended?.map fun v ↦ cmp u v := by
  match x, y with
  | .nan, _ => rfl
  | .infinite _, .nan | .finite .., .nan => rfl
  | .infinite a, .infinite b => cases a <;> cases b <;> rfl
  | .infinite a, .finite s m e => exact congrArg some (cmp_infinite a _).symm
  | .finite s m e, .infinite b =>
    refine congrArg some (Eq.trans ?_ (cmp_swap _ _))
    rw [cmp_infinite]
    cases b <;> rfl
  | .finite s₁ m₁ e₁, .finite s₂ m₂ e₂ =>
    exact congrArg some ((compareScaled_eq _ _ _ _).trans (cmp_coe _ _).symm)

/-- A double and an integer are compared by their exact values. -/
theorem compareInt?_eq (x : Double) (n : Int) :
    x.compareInt? n = x.extended?.map fun u ↦ cmp u (((n : ℚ) : WithTop ℚ) : Extended) := by
  match x with
  | .nan => rfl
  | .infinite a => exact congrArg some (cmp_infinite a n).symm
  | .finite s m e =>
    have hscaled := compareScaled_eq (signed s m) e n 0
    rw [zpow_zero, mul_one] at hscaled
    exact congrArg some (hscaled.trans (cmp_coe _ _).symm)

theorem extended?_eq_none_iff {x : Double} : x.extended? = none ↔ x = .nan := by
  cases x <;> simp [extended?]

theorem signed_mul (negative : Bool) (m k : Nat) :
    signed negative (m * k) = signed negative m * k := by
  cases negative <;> simp [signed]

/-- A signed number is a multiple of another number if it is one without its sign. -/
theorem signed_eq_mul_iff {negative : Bool} {m k : Nat} {n : Int} (hk : 0 < k) :
    signed negative m = n * k ↔ m % k = 0 ∧ signed negative (m / k) = n := by
  have hdvd : (k : Int) ∣ signed negative m ↔ k ∣ m := by
    cases negative <;> simp [signed, Int.natCast_dvd_natCast]
  have hquotient (q : Nat) : signed negative (q * k) = n * k ↔ signed negative q = n := by
    rw [signed_mul, mul_left_inj' (by omega)]
  constructor
  · intro h
    obtain ⟨q, rfl⟩ := hdvd.mp ⟨n, by rw [h, mul_comm]⟩
    rw [mul_comm, hquotient] at h
    exact ⟨Nat.mul_mod_right k q, by rw [Nat.mul_div_cancel_left q hk, h]⟩
  · rintro ⟨hmod, h⟩
    obtain ⟨q, rfl⟩ := Nat.dvd_of_mod_eq_zero hmod
    rw [Nat.mul_div_cancel_left q hk] at h
    rw [mul_comm, hquotient, h]

/-- **Which doubles are whole.** A double equals an integer if the integer is its exact value. -/
theorem toInt?_eq_some_iff {x : Double} {n : Int} :
    x.toInt? = some n ↔ x.extended? = some (((n : ℚ) : WithTop ℚ) : Extended) := by
  have hcast (p q : ℚ) : ((p : WithTop ℚ) : Extended) = (q : WithTop ℚ) ↔ p = q := by
    rw [WithBot.coe_inj, WithTop.coe_inj]
  cases x with
  | nan => simp [toInt?, extended?]
  | infinite negative => cases negative <;> simp [toInt?, extended?]
  | finite negative m e =>
    have htwo (k : Nat) : 0 < twoTo k := Nat.pow_pos (by decide)
    rw [toInt?, extended?, Option.some_inj, hcast]
    split
    · rename_i he
      have hscaled := scaled_eq he (signed negative m)
      rw [zpow_zero, mul_one, sub_zero] at hscaled
      rw [← hscaled, Int.cast_inj, Option.some_inj, signed_mul]
    · rename_i he
      have hscaled := scaled_eq (Int.le_of_not_le he) n
      rw [zpow_zero, mul_one, zero_sub] at hscaled
      have hpos : (2 : ℚ) ^ e ≠ 0 := zpow_ne_zero e two_ne_zero
      rw [← hscaled, mul_left_inj' hpos, Int.cast_inj, signed_eq_mul_iff (htwo _)]
      split
      · rename_i hmod
        simp [hmod]
      · rename_i hmod
        simp [hmod]

end Double

namespace Number

/-- The exact value of a number; NaN has none. -/
def extended? : Number → Option Extended
  | .int n => some ((n : ℚ) : WithTop ℚ)
  | .double x => x.extended?

theorem extended?_eq_none_iff {x : Number} : x.extended? = none ↔ x = nan := by
  cases x with
  | int n => simp [extended?, nan]
  | double x => simp [extended?, nan, Double.extended?_eq_none_iff]

/-- **Numbers are compared exactly.** The order of two numbers is that of their exact values. -/
theorem compare?_eq (x y : Number) :
    x.compare? y = x.extended?.bind fun u ↦ y.extended?.map fun v ↦ cmp u v := by
  match x, y with
  | .int m, .int n =>
    refine congrArg some (Eq.trans ?_ (Double.cmp_coe _ _).symm)
    rw [Int.cast_strictMono.cmp_map_eq, cmp_eq_compare]
  | .int m, .double y =>
    have hdouble : (Number.double y).extended? = y.extended? := rfl
    rw [compare?, Double.compareInt?_eq, hdouble]
    cases y.extended? with
    | none => rfl
    | some v => exact congrArg some (cmp_swap v _)
  | .double x, .int n =>
    have hdouble : (Number.double x).extended? = x.extended? := rfl
    rw [compare?, Double.compareInt?_eq, hdouble]
    cases x.extended? <;> rfl
  | .double x, .double y => exact Double.compare?_eq x y

theorem swap_compare? (x y : Number) : (x.compare? y).map Ordering.swap = y.compare? x := by
  rw [compare?_eq, compare?_eq]
  cases x.extended? with
  | none => cases y.extended? <;> rfl
  | some u =>
    cases y.extended? with
    | none => rfl
    | some v => exact congrArg some (cmp_swap u v)

theorem compare?_eq_some_iff {x y : Number} {o : Ordering} : x.compare? y = some o ↔
    ∃ u v, x.extended? = some u ∧ y.extended? = some v ∧ cmp u v = o := by
  rw [compare?_eq, Option.bind_eq_some_iff]
  refine exists_congr fun u ↦ ?_
  rw [Option.map_eq_some_iff]
  exact exists_and_left.symm

/-- Numbers have an order unless one of them is NaN. -/
theorem compare?_eq_none_iff {x y : Number} : x.compare? y = none ↔ x = nan ∨ y = nan := by
  rw [compare?_eq, ← extended?_eq_none_iff, ← extended?_eq_none_iff]
  cases x.extended? with
  | none => exact iff_of_true rfl (.inl rfl)
  | some u =>
    cases y.extended? with
    | none => exact iff_of_true rfl (.inr rfl)
    | some v => exact iff_of_false (Option.some_ne_none _) (by rintro (h | h) <;> cases h)

/-! ## Equal and less -/

/-- Numbers are equal if they have the same exact value. -/
theorem equals_iff {x y : Number} :
    x.equals y = true ↔ ∃ u, x.extended? = some u ∧ y.extended? = some u := by
  rw [equals, decide_eq_true_eq, compare?_eq_some_iff]
  constructor
  · rintro ⟨u, v, hu, hv, heq⟩
    obtain rfl := (cmp_eq_eq_iff u v).mp heq
    exact ⟨u, hu, hv⟩
  · rintro ⟨u, hu, hv⟩
    exact ⟨u, u, hu, hv, cmp_self_eq_eq u⟩

theorem equals_comm (x y : Number) : x.equals y = y.equals x := by
  rw [Bool.eq_iff_iff, equals_iff, equals_iff]
  simp only [and_comm]

/-- A number is less than another one if its exact value is. -/
theorem compare?_eq_lt_iff {x y : Number} :
    x.compare? y = some .lt ↔ ∃ u v, x.extended? = some u ∧ y.extended? = some v ∧ u < v := by
  rw [compare?_eq_some_iff]
  exact exists₂_congr fun u v ↦ and_congr_right' (and_congr_right' (cmp_eq_lt_iff u v))

theorem compare?_lt_trans {x y z : Number} (h : x.compare? y = some .lt)
    (h' : y.compare? z = some .lt) : x.compare? z = some .lt := by
  obtain ⟨u, v, hu, hv, huv⟩ := compare?_eq_lt_iff.mp h
  obtain ⟨v', w, hv', hw, hvw⟩ := compare?_eq_lt_iff.mp h'
  obtain rfl := Option.some.inj (hv.symm.trans hv')
  exact compare?_eq_lt_iff.mpr ⟨u, w, hu, hw, huv.trans hvw⟩

end Number

end MockApi
