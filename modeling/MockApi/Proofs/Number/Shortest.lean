import Mathlib.Data.Rat.Floor
import MockApi.Proofs.Number.Rounding

/-!
# Shortest decimals

A double is written with the digits of a decimal that reads back as the double. The search goes
through the powers of ten from the top and stops at the first one with a multiple in the cell of the
double; the multiple is one of the two around the double. So no coarser power has a multiple in the
cell, and this is all that is needed: a decimal in the cell with fewer digits would leave a power of
ten between itself and the one that is found, and that power would be a coarser multiple.

The same argument tells where the point stands. The shortest decimal is whole just if the double is,
and it reaches `10 ^ 21` just if the double does, since that power of ten is a double itself. The
digits of a whole number beyond 53 bits, however, need not be those of its shortest decimal.
-/

namespace MockApi.Double

/-- The value of a decimal. -/
def Decimal.value (d : Decimal) : ℚ := d.coefficient * 10 ^ d.exponent

/-! ## Multiples of a power of ten -/

section Multiples

variable {m c : Nat} {e k : Int}

/-- The unit of a rounding interval and a power of ten, over a common denominator. -/
def units (e k : Int) : Nat × Nat :=
  (twoTo (e - 2).toNat * tenTo (-k).toNat, twoTo (2 - e).toNat * tenTo k.toNat)

theorem units_pos (e k : Int) : 0 < (units e k).1 ∧ 0 < (units e k).2 :=
  ⟨Nat.mul_pos (twoTo_pos _) (Nat.pow_pos (by decide)),
    Nat.mul_pos (twoTo_pos _) (Nat.pow_pos (by decide))⟩

theorem units_div (e k : Int) : ((units e k).2 : ℚ) / (units e k).1 = 10 ^ k / 2 ^ (e - 2) := by
  rw [zpow_eq_div (by norm_num : (10 : ℚ) ≠ 0), zpow_eq_div two_ne_zero, neg_sub, units,
    Nat.cast_mul, Nat.cast_mul, natCast_twoTo, natCast_twoTo, natCast_tenTo, natCast_tenTo]
  field_simp

/-- Whether a fraction is in the rounding interval. -/
def isInside (m : Nat) (e : Int) (num den : Nat) : Bool :=
  let (low, high) := roundingInterval m e
  if m % 2 = 0 then low * den ≤ num && num ≤ high * den else low * den < num && num < high * den

theorem isInside_iff {num den : Nat} (hden : 0 < den) : isInside m e num den = true ↔
    (num : ℚ) / den ∈ between m (roundingInterval m e).1 (roundingInterval m e).2 := by
  have hden' : (0 : ℚ) < den := Nat.cast_pos.mpr hden
  unfold isInside between
  dsimp only
  split
  · rw [Set.mem_Icc, le_div_iff₀ hden', div_le_iff₀ hden', Bool.and_eq_true, decide_eq_true_eq,
      decide_eq_true_eq]
    norm_cast
  · rw [Set.mem_Ioo, lt_div_iff₀ hden', div_lt_iff₀ hden', Bool.and_eq_true, decide_eq_true_eq,
      decide_eq_true_eq]
    norm_cast

/-- The value of a double, in units of its rounding interval. -/
theorem four_mul_mem_between (hm : 0 < m) (e : Int) :
    (4 * m : ℚ) ∈ between m (roundingInterval m e).1 (roundingInterval m e).2 := by
  have hlow : (roundingInterval m e).1 < 4 * m := by
    dsimp only [roundingInterval]
    split <;> omega
  have hhigh : 4 * m < (roundingInterval m e).2 := by
    dsimp only [roundingInterval]
    omega
  exact mem_between_iff.mpr ⟨.inl (by exact_mod_cast hlow), .inl (by exact_mod_cast hhigh)⟩

theorem value_div_unit (m : Nat) (e : Int) : (m : ℚ) * 2 ^ e / 2 ^ (e - 2) = 4 * m := by
  rw [div_zpow_sub_two, mul_div_assoc, div_self (zpow_ne_zero e two_ne_zero), mul_one]

/-- The value of a double is in its cell. -/
theorem value_mem_cell (hm : 0 < m) (e : Int) : (m : ℚ) * 2 ^ e ∈ cell m e := by
  rw [mem_cell_iff, value_div_unit]
  exact four_mul_mem_between hm e

theorem ordConnected_cell (m : Nat) (e : Int) : (cell m e).OrdConnected := by
  have hmono : Monotone fun q : ℚ ↦ q / 2 ^ (e - 2) :=
    fun _ _ hle ↦ div_le_div_of_nonneg_right hle (zpow_pos two_pos _).le
  exact (ordConnected_between _ _ _).preimage_mono hmono

/-- A natural number with a property that is nearest to a rational, of all that have it. -/
def IsNearest (P : Nat → Prop) (x : ℚ) (c : Nat) : Prop := P c ∧ ∀ n, P n → |x - c| ≤ |x - n|

/-- A natural number with a property is nearest if neither of two neighbours is nearer, provided
that with a number on its side either neighbour has the property. -/
theorem isNearest_of_neighbours {P : Nat → Prop} {x : ℚ} {n c : Nat}
    (hleft : ∀ i ≤ n, P i → P n) (hright : ∀ i, n < i → P i → P (n + 1))
    (hc : P c) (hn : P n → |x - c| ≤ x - n) (hnext : P (n + 1) → |x - c| ≤ n + 1 - x) :
    IsNearest P x c := by
  refine ⟨hc, fun i hi ↦ ?_⟩
  rcases Nat.lt_or_ge n i with hlt | hle
  · have hi' : (n : ℚ) + 1 ≤ i := by exact_mod_cast hlt
    calc |x - c| ≤ n + 1 - x := hnext (hright i hlt hi)
      _ ≤ -(x - i) := by linarith
      _ ≤ |x - i| := neg_le_abs _
  · have hi' : (i : ℚ) ≤ n := by exact_mod_cast hle
    calc |x - c| ≤ x - n := hn (hleft i hle hi)
      _ ≤ x - i := by linarith
      _ ≤ |x - i| := le_abs_self _

/-- The nearer of the two natural numbers around a quotient; of a tie, the even one. -/
def nearer (value unit : Nat) : Nat :=
  let c := value / unit
  let below := value - c * unit
  let above := (c + 1) * unit - value
  if below < above then c else if above < below then c + 1 else c + c % 2

/-- The quotient lies between two natural numbers, and neither is nearer than what is taken. -/
theorem nearer_spec (value : Nat) {unit : Nat} (hunit : 0 < unit) :
    let n := value / unit
    let x : ℚ := value / unit
    n ≤ x ∧ x ≤ n + 1 ∧ (nearer value unit = n ∧ x - n ≤ n + 1 - x ∨
      nearer value unit = n + 1 ∧ n + 1 - x ≤ x - n) := by
  have hunit' : (0 : ℚ) < unit := Nat.cast_pos.mpr hunit
  have hfloor : value / unit * unit ≤ value := Nat.div_mul_le_self value unit
  have hceil : value < (value / unit + 1) * unit := by
    rw [Nat.add_one_mul, Nat.mul_comm]
    exact Nat.lt_mul_div_succ value hunit
  unfold nearer
  dsimp only
  generalize value / unit = n at *
  have hbelow : ((value - n * unit : Nat) : ℚ) = (value / unit - n) * unit := by
    rw [Nat.cast_sub hfloor, sub_mul, div_mul_cancel₀ _ hunit'.ne', Nat.cast_mul]
  have habove : (((n + 1) * unit - value : Nat) : ℚ) = (n + 1 - value / unit) * unit := by
    rw [Nat.cast_sub hceil.le, sub_mul, div_mul_cancel₀ _ hunit'.ne', Nat.cast_mul, Nat.cast_succ]
  have hcompare : (value - n * unit < (n + 1) * unit - value ↔
        (value : ℚ) / unit - n < n + 1 - value / unit) ∧
      ((n + 1) * unit - value < value - n * unit ↔
        (n : ℚ) + 1 - value / unit < value / unit - n) := by
    rw [← Nat.cast_lt (α := ℚ), ← Nat.cast_lt (α := ℚ), hbelow, habove,
      mul_lt_mul_iff_of_pos_right hunit', mul_lt_mul_iff_of_pos_right hunit']
    exact ⟨Iff.rfl, Iff.rfl⟩
  refine ⟨?_, ?_, ?_⟩
  · rw [le_div_iff₀ hunit']
    exact_mod_cast hfloor
  · rw [div_le_iff₀ hunit']
    exact_mod_cast hceil.le
  · simp only [hcompare.1, hcompare.2]
    split_ifs with hlt hgt
    · exact .inl ⟨rfl, hlt.le⟩
    · exact .inr ⟨rfl, hgt.le⟩
    · -- of a tie, either number will do
      have htie := le_antisymm (not_lt.mp hgt) (not_lt.mp hlt)
      rcases Nat.mod_two_eq_zero_or_one n with heven | hodd
      · exact .inl ⟨by omega, htie.le⟩
      · exact .inr ⟨by omega, htie.ge⟩

/-- The nearer of the two natural numbers around a quotient, of those that are inside. -/
def pickNear (inside : Nat → Bool) (value unit : Nat) : Option Nat :=
  let c := value / unit
  match inside c, inside (c + 1) with
  | true, true => some (nearer value unit)
  | true, false => some c
  | false, true => some (c + 1)
  | false, false => none

/-- What is picked is nearest, if with a number all those between it and the quotient are inside. -/
theorem pickNear_spec {P : Nat → Prop} {inside : Nat → Bool} {value unit : Nat} (hunit : 0 < unit)
    (hinside : ∀ n, inside n = true ↔ P n)
    (hleft : ∀ i n, i ≤ n → n * unit ≤ value → P i → P n)
    (hright : ∀ i n, n ≤ i → value ≤ n * unit → P i → P n) :
    (∀ c, pickNear inside value unit = some c → IsNearest P (value / unit) c) ∧
      (pickNear inside value unit = none → ∀ c, ¬P c) := by
  obtain ⟨hlow, hhigh, hnearer⟩ := nearer_spec value hunit
  have hfloor : value / unit * unit ≤ value := Nat.div_mul_le_self value unit
  have hceil : value < (value / unit + 1) * unit := by
    rw [Nat.add_one_mul, Nat.mul_comm]
    exact Nat.lt_mul_div_succ value hunit
  unfold pickNear
  dsimp only
  generalize value / unit = n at *
  generalize (value : ℚ) / unit = x at *
  have hleft' : ∀ i ≤ n, P i → P n := fun i hle ↦ hleft i n hle hfloor
  have hright' : ∀ i, n < i → P i → P (n + 1) := fun i hlt ↦ hright i (n + 1) hlt hceil.le
  have hnear {c : Nat} := isNearest_of_neighbours (x := x) (c := c) hleft' hright'
  have hfirst : |x - n| = x - n := abs_of_nonneg (by linarith)
  have hsecond : |x - (n + 1 : Nat)| = n + 1 - x := by
    rw [abs_sub_comm, Nat.cast_succ]
    exact abs_of_nonneg (by linarith)
  have hP {i : Nat} (hi : inside i = false) : ¬P i := by
    rw [← hinside, hi]
    exact Bool.false_ne_true
  -- if neither neighbour is inside then nothing is, since the inside has no gaps
  cases hn : inside n <;> cases hnext : inside (n + 1)
  case false.false =>
    refine ⟨fun c hc ↦ absurd hc (by simp), fun _ c hc ↦ ?_⟩
    rcases Nat.lt_or_ge n c with hlt | hle
    · exact hP hnext (hright' c hlt hc)
    · exact hP hn (hleft' c hle hc)
  case false.true =>
    refine ⟨fun c hc ↦ ?_, fun hnone ↦ absurd hnone (by simp)⟩
    obtain rfl := Option.some.inj hc
    exact hnear ((hinside _).mp hnext) (fun h ↦ absurd h (hP hn)) fun _ ↦ hsecond.le
  case true.false =>
    refine ⟨fun c hc ↦ ?_, fun hnone ↦ absurd hnone (by simp)⟩
    obtain rfl := Option.some.inj hc
    exact hnear ((hinside _).mp hn) (fun _ ↦ hfirst.le) fun h ↦ absurd h (hP hnext)
  case true.true =>
    refine ⟨fun c hc ↦ ?_, fun hnone ↦ absurd hnone (by simp)⟩
    obtain rfl := Option.some.inj hc
    rcases hnearer with ⟨heq, hle⟩ | ⟨heq, hle⟩
    · rw [heq]
      exact hnear ((hinside _).mp hn) (fun _ ↦ hfirst.le) fun _ ↦ hfirst.le.trans hle
    · rw [heq]
      exact hnear ((hinside _).mp hnext) (fun _ ↦ hsecond.le.trans hle) fun _ ↦ hsecond.le

/-- **The multiple that is picked.** It is in the cell and nearest to the double, of the multiples
of a power of ten that are in the cell; if none is picked there is none. -/
theorem multipleIn?_spec (hm : 0 < m) (e k : Int) :
    (∀ c, multipleIn? m e k = some c →
      IsNearest (fun n ↦ (n : ℚ) * 10 ^ k ∈ cell m e) (m * 2 ^ e / 10 ^ k) c) ∧
    (multipleIn? m e k = none → ∀ c : Nat, (c : ℚ) * 10 ^ k ∉ cell m e) := by
  obtain ⟨ha, hb⟩ := units_pos e k
  have hunits := units_div e k
  have hpick : multipleIn? m e k = pickNear
      (fun c ↦ isInside m e (c * (units e k).2) (units e k).1) (4 * m * (units e k).1)
      (units e k).2 := rfl
  rw [hpick]
  generalize (units e k).1 = a at *
  generalize (units e k).2 = b at *
  have ha' : (0 : ℚ) < a := Nat.cast_pos.mpr ha
  have hb' : (0 : ℚ) < b := Nat.cast_pos.mpr hb
  have hcell (n : Nat) : (n : ℚ) * 10 ^ k ∈ cell m e ↔ isInside m e (n * b) a = true := by
    rw [isInside_iff ha, mem_cell_iff, mul_div_assoc, ← hunits, Nat.cast_mul, mul_div_assoc]
  have hvalue : ((4 * m * a : Nat) : ℚ) / b = m * 2 ^ e / 10 ^ k := calc
    ((4 * m * a : Nat) : ℚ) / b = 4 * m / (b / a) := by
      push_cast
      field_simp
    _ = m * 2 ^ e / 2 ^ (e - 2) / (10 ^ k / 2 ^ (e - 2)) := by rw [hunits, value_div_unit]
    _ = m * 2 ^ e / 10 ^ k := div_div_div_cancel_right₀ (zpow_ne_zero _ two_ne_zero) _ _
  have hscaled {i n : Nat} (hle : i ≤ n) : (i : ℚ) / a ≤ n / a :=
    div_le_div_of_nonneg_right (Nat.cast_le.mpr hle) ha'.le
  have hmiddle : ((4 * m * a : Nat) : ℚ) / a ∈
      between m (roundingInterval m e).1 (roundingInterval m e).2 := by
    rw [Nat.cast_mul, mul_div_cancel_right₀ _ ha'.ne']
    exact_mod_cast four_mul_mem_between hm e
  have hconvex := ordConnected_between m (roundingInterval m e).1 (roundingInterval m e).2
  rw [← hvalue]
  refine pickNear_spec hb (fun n ↦ (hcell n).symm) (fun i n hle hn hi ↦ ?_) fun i n hle hn hi ↦ ?_
  · rw [hcell, isInside_iff ha] at hi ⊢
    exact hconvex.out hi hmiddle ⟨hscaled (Nat.mul_le_mul_right b hle), hscaled hn⟩
  · rw [hcell, isInside_iff ha] at hi ⊢
    exact hconvex.out hmiddle hi ⟨hscaled hn, hscaled (Nat.mul_le_mul_right b hle)⟩

end Multiples

/-! ## The coarsest decimal -/

/-- The first power of ten, from the top, that has a multiple in the cell decides. -/
theorem coarsest_spec {m : Nat} {e : Int} (below steps : Nat)
    (h : ∃ k : Int, -(below : Int) ≤ k ∧ k < (steps : Int) - below ∧ multipleIn? m e k ≠ none) :
    let d := coarsest m e below steps
    multipleIn? m e d.exponent = some d.coefficient ∧
      ∀ k, d.exponent < k → k < (steps : Int) - below → multipleIn? m e k = none := by
  induction steps with
  | zero =>
    obtain ⟨k, hlow, hhigh, -⟩ := h
    push_cast at hhigh
    omega
  | succ steps ih =>
    intro d
    obtain ⟨k, hlow, hhigh, hk⟩ := h
    cases hpick : multipleIn? m e ((steps : Int) - below) with
    | some c =>
      have hd : d = ⟨c, (steps : Int) - below⟩ := by
        simp only [d, coarsest, hpick]
      rw [hd]
      refine ⟨hpick, fun k' hlt hlt' ↦ ?_⟩
      dsimp only at hlt
      push_cast at hlt'
      omega
    | none =>
      have hd : d = coarsest m e below steps := by
        simp only [d, coarsest, hpick]
      have hne : k ≠ (steps : Int) - below := by
        rintro rfl
        exact hk hpick
      push_cast at hhigh
      obtain ⟨hfound, hnone⟩ := ih ⟨k, hlow, by omega, hk⟩
      rw [hd]
      refine ⟨hfound, fun k' hlt hlt' ↦ ?_⟩
      push_cast at hlt'
      rcases Int.lt_or_eq_of_le (by omega : k' ≤ (steps : Int) - below) with hlt'' | rfl
      · exact hnone k' hlt hlt''
      · exact hpick

/-! ## The shortest decimal -/

section Shortest

variable {negative : Bool} {m c : Nat} {e k : Int}

/-- The grids that are searched go down to one with a multiple in every cell. -/
theorem exists_multiple (hm : 0 < m) (h : IsCanonical m e) :
    ∃ c : Nat, (c : ℚ) * 10 ^ (-330 : Int) ∈ cell m e := by
  have hpos : (0 : ℚ) < 10 ^ (-330 : Int) := zpow_pos (by norm_num) _
  have hunit : (0 : ℚ) < 2 ^ (e - 2) := zpow_pos two_pos _
  have hfine : (10 : ℚ) ^ (-330 : Int) ≤ 2 ^ (e - 2) := calc
    (10 : ℚ) ^ (-330 : Int) ≤ 2 ^ (-1076 : Int) := by
      rw [zpow_neg, zpow_neg]
      exact inv_anti₀ (zpow_pos two_pos _)
        (two_zpow_le_ten_zpow (by decide +kernel : twoTo 1076 ≤ tenTo 330))
    _ ≤ 2 ^ (e - 2) := zpow_le_zpow_right₀ one_le_two (by have := h.least; omega)
  have hvalue := value_div_unit m e
  have hinside := four_mul_mem_between hm e
  refine ⟨⌊(m : ℚ) * 2 ^ e / 10 ^ (-330 : Int)⌋₊, ?_⟩
  have hlow := Nat.floor_le (a := (m : ℚ) * 2 ^ e / 10 ^ (-330 : Int)) (by positivity)
  have hhigh := Nat.lt_floor_add_one ((m : ℚ) * 2 ^ e / 10 ^ (-330 : Int))
  generalize ⌊(m : ℚ) * 2 ^ e / 10 ^ (-330 : Int)⌋₊ = c at *
  rw [le_div_iff₀ hpos] at hlow
  rw [div_lt_iff₀ hpos, add_one_mul] at hhigh
  -- the multiple below the value is less than one unit away
  have hle : (c : ℚ) * 10 ^ (-330 : Int) / 2 ^ (e - 2) ≤ 4 * m := by
    rw [← hvalue]
    exact div_le_div_of_nonneg_right hlow hunit.le
  have hlt : (4 * m : ℚ) - 1 < c * 10 ^ (-330 : Int) / 2 ^ (e - 2) := by
    rw [lt_div_iff₀ hunit, sub_mul, ← hvalue, div_mul_cancel₀ _ hunit.ne']
    linarith
  have hstart : ((roundingInterval m e).1 : ℚ) ≤ 4 * m - 1 := by
    have hnat : (roundingInterval m e).1 + 1 ≤ 4 * m := by
      dsimp only [roundingInterval]
      split <;> omega
    have hcast : ((roundingInterval m e).1 : ℚ) + 1 ≤ 4 * m := by exact_mod_cast hnat
    linarith
  rw [mem_cell_iff, mem_between_iff]
  obtain ⟨-, hend⟩ := between_subset _ _ _ hinside
  refine ⟨.inl (hstart.trans_lt hlt), ?_⟩
  have hend' : (4 * m : ℚ) < (roundingInterval m e).2 := by
    dsimp only [roundingInterval]
    push_cast
    linarith
  exact .inl (hle.trans_lt hend')

/-- **The shortest decimal.** It is a multiple in the cell of the coarsest power of ten that has
any, and nearest to the double of those multiples. -/
theorem shortest_spec (hm : 0 < m) (h : IsCanonical m e) :
    IsNearest (fun n ↦ (n : ℚ) * 10 ^ (shortest m e).exponent ∈ cell m e)
      (m * 2 ^ e / 10 ^ (shortest m e).exponent) (shortest m e).coefficient ∧
    ∀ k, (shortest m e).exponent < k → ∀ c : Nat, (c : ℚ) * 10 ^ k ∉ cell m e := by
  obtain ⟨c, hc⟩ := exists_multiple hm h
  have hfound : multipleIn? m e (-330) ≠ none := fun hnone ↦ (multipleIn?_spec hm e _).2 hnone c hc
  obtain ⟨hmultiple, hnone⟩ := coarsest_spec 330 640
    ⟨-330, by decide, by decide, hfound⟩
  refine ⟨(multipleIn?_spec hm e _).1 _ hmultiple, fun k hk c hmem ↦ ?_⟩
  rcases Int.lt_or_le k 310 with hlt | hle
  · exact (multipleIn?_spec hm e k).2 (hnone k hk hlt) c hmem
  · obtain ⟨-, hhigh⟩ := cell_subset hm h hmem
    have hone : (1 : ℚ) ≤ c := by exact_mod_cast pos_of_mem_cell hm h hmem
    have hpower : (2 : ℚ) ^ (1024 : Int) ≤ 10 ^ k :=
      (two_zpow_le_ten_zpow (by decide +kernel : twoTo 1024 ≤ tenTo 310)).trans
        (zpow_le_zpow_right₀ (by norm_num) hle)
    exact absurd (hpower.trans (le_mul_of_one_le_left (by positivity) hone)) (not_le.mpr hhigh)

theorem shortest_mem_cell (hm : 0 < m) (h : IsCanonical m e) :
    (shortest m e).value ∈ cell m e := (shortest_spec hm h).1.1

/-- The shortest decimal of a positive double reads back as the double. -/
theorem ofDecimal_shortest (hm : 0 < m) (h : IsCanonical m e) :
    ofDecimal negative (shortest m e).coefficient (shortest m e).exponent
      = .finite negative m e :=
  (ofDecimal_eq_finite_iff hm h).mpr (shortest_mem_cell hm h)

/-- **The fewest digits.** No decimal that reads as the double has fewer digits than the shortest
decimal. -/
theorem length_shortest_le (hm : 0 < m) (h : IsCanonical m e) (hmem : (c : ℚ) * 10 ^ k ∈ cell m e) :
    (Nat.toDigits 10 (shortest m e).coefficient).length ≤ (Nat.toDigits 10 c).length := by
  obtain ⟨⟨hshortest, -⟩, hcoarsest⟩ := shortest_spec hm h
  have hk : k ≤ (shortest m e).exponent := not_lt.mp fun hlt ↦ hcoarsest k hlt c hmem
  have hone : 0 < (Nat.toDigits 10 c).length := List.length_pos_of_ne_nil (by simp)
  obtain ⟨-, hbelow⟩ := decimal_bounds (pos_of_mem_cell hm h hmem) k
  obtain ⟨habove, -⟩ := decimal_bounds (pos_of_mem_cell hm h hshortest) (shortest m e).exponent
  by_contra hlt
  -- a power of ten lies between the two decimals, so its grid is coarser
  let j : Int := (Nat.toDigits 10 (shortest m e).coefficient).length + (shortest m e).exponent - 1
  have hj : ((Nat.toDigits 10 c).length : Int) + k ≤ j := by omega
  have hpower : ((1 : Nat) : ℚ) * 10 ^ j ∈ cell m e := by
    rw [Nat.cast_one, one_mul]
    exact (ordConnected_cell m e).out hmem hshortest
      ⟨hbelow.le.trans (zpow_le_zpow_right₀ (by norm_num) hj), habove⟩
  exact hcoarsest j (by omega) 1 hpower

end Shortest

theorem shortest_zero : shortest 0 (-1074) = ⟨0, 309⟩ := by decide +kernel

theorem IsCanonical.eq_of_zero {e : Int} (h : IsCanonical 0 e) : e = -1074 :=
  h.full.resolve_left (by decide)

/-- A decimal that reads as a double without its sign, with the fewest digits and nearest of the
multiples of its power of ten. -/
structure IsShortest (m : Nat) (e : Int) (d : Decimal) : Prop where
  /-- The decimal reads as the double. -/
  reads : ofDecimal false d.coefficient d.exponent = .finite false m e
  /-- None with fewer digits does. -/
  fewest : ∀ c k, ofDecimal false c k = .finite false m e →
    (Nat.toDigits 10 d.coefficient).length ≤ (Nat.toDigits 10 c).length
  /-- None with its exponent that does is nearer. -/
  nearest : ∀ c, ofDecimal false c d.exponent = .finite false m e →
    |(m : ℚ) * 2 ^ e - d.value| ≤ |(m : ℚ) * 2 ^ e - c * 10 ^ d.exponent|

theorem isShortest_shortest {m : Nat} {e : Int} (h : IsCanonical m e) :
    IsShortest m e (shortest m e) := by
  rcases Nat.eq_zero_or_pos m with rfl | hm
  · obtain rfl := h.eq_of_zero
    rw [shortest_zero]
    refine ⟨rfl, fun c k _ ↦ List.length_pos_of_ne_nil (by simp), fun c _ ↦ ?_⟩
    have hzero : ((0 : Nat) : ℚ) * 2 ^ (-1074 : Int) - Decimal.value ⟨0, 309⟩ = 0 := by
      simp [Decimal.value]
    rw [hzero, abs_zero]
    exact abs_nonneg _
  · refine ⟨ofDecimal_shortest hm h, fun c k hread ↦ ?_, fun c hread ↦ ?_⟩
    · exact length_shortest_le hm h ((ofDecimal_eq_finite_iff hm h).mp hread)
    · have hnearest := (shortest_spec hm h).1.2 c ((ofDecimal_eq_finite_iff hm h).mp hread)
      generalize shortest m e = d at *
      have hpos : (0 : ℚ) < 10 ^ d.exponent := zpow_pos (by norm_num) _
      have hscale (n : Nat) : |(m : ℚ) * 2 ^ e - n * 10 ^ d.exponent| =
          |(m : ℚ) * 2 ^ e / 10 ^ d.exponent - n| * 10 ^ d.exponent := by
        rw [← abs_of_pos hpos, ← abs_mul, abs_of_pos hpos, sub_mul, div_mul_cancel₀ _ hpos.ne']
      rw [Decimal.value, hscale, hscale]
      exact mul_le_mul_of_nonneg_right hnearest hpos.le

/-! ## Whole numbers -/

/-- Where the point of a decimal stands, counted in digits from the front of its coefficient. -/
def Decimal.point (d : Decimal) : Int := (Nat.toDigits 10 d.coefficient).length + d.exponent

/-- The position of the point tells which powers of ten a decimal reaches. -/
theorem Decimal.ten_zpow_le_value_iff {d : Decimal} (h : 0 < d.coefficient) {j : Int} :
    (10 : ℚ) ^ j ≤ d.value ↔ j < d.point := by
  obtain ⟨hlow, hhigh⟩ := decimal_bounds h d.exponent
  constructor
  · intro hj
    exact (zpow_lt_zpow_iff_right₀ (by norm_num)).mp (hj.trans_lt hhigh)
  · intro hj
    exact (zpow_le_zpow_right₀ (by norm_num) (Int.le_sub_one_of_lt hj)).trans hlow

section Whole

variable {m n : Nat} {e : Int}

/-- If its last bit counts one or less, a double is the only whole number in its cell. -/
theorem eq_of_natCast_mem_cell (he : e ≤ 0) (hmem : (n : ℚ) ∈ cell m e) : (n : ℚ) = m * 2 ^ e := by
  obtain ⟨j, rfl⟩ : ∃ j : Nat, e = -j := ⟨(-e).toNat, by omega⟩
  have hscaled : (n : ℚ) / 2 ^ (-(j : Int)) = (n * 2 ^ j : Nat) := by
    rw [zpow_neg, div_inv_eq_mul, zpow_natCast]
    push_cast
    rfl
  obtain ⟨hlow, hhigh⟩ := between_subset _ _ _ (mem_cell_iff.mp hmem)
  rw [div_zpow_sub_two, hscaled] at hlow hhigh
  have hlow' : (roundingInterval m (-j)).1 ≤ 4 * (n * 2 ^ j) := by exact_mod_cast hlow
  have hhigh' : 4 * (n * 2 ^ j) ≤ (roundingInterval m (-j)).2 := by exact_mod_cast hhigh
  have heq : n * 2 ^ j = m := by
    dsimp only [roundingInterval] at hlow' hhigh'
    split at hlow' <;> omega
  rw [← heq, ← hscaled, div_mul_cancel₀ _ (zpow_ne_zero _ two_ne_zero)]

theorem value_eq_natCast {d : Decimal} (h : 0 ≤ d.exponent) :
    d.value = (d.coefficient * tenTo d.exponent.toNat : Nat) := by
  rw [Nat.cast_mul, natCast_tenTo, Decimal.value, zpow_eq_div (by norm_num)]
  have hzero : (-d.exponent).toNat = 0 := by omega
  rw [hzero, pow_zero, div_one]

/-- The shortest decimal of a double is whole just if the double is. -/
theorem exponent_shortest_nonneg_iff (hm : 0 < m) (h : IsCanonical m e) :
    0 ≤ (shortest m e).exponent ↔ ∃ n : Nat, (n : ℚ) = m * 2 ^ e := by
  constructor
  · intro hexponent
    rcases Int.le_total 0 e with he | he
    · refine ⟨m * 2 ^ e.toNat, ?_⟩
      rw [Nat.cast_mul, Nat.cast_pow, Nat.cast_ofNat, ← zpow_natCast, Int.toNat_of_nonneg he]
    · have hmem := shortest_mem_cell hm h
      rw [value_eq_natCast hexponent] at hmem
      exact ⟨_, eq_of_natCast_mem_cell he hmem⟩
  · rintro ⟨n, hn⟩
    by_contra hneg
    refine (shortest_spec hm h).2 0 (not_le.mp hneg) n ?_
    rw [zpow_zero, mul_one, hn]
    exact value_mem_cell hm e

theorem coefficient_shortest_pos (hm : 0 < m) (h : IsCanonical m e) :
    0 < (shortest m e).coefficient := pos_of_mem_cell hm h (shortest_mem_cell hm h)

/-- The shortest decimal of a double that is not whole has at most 16 digits before the point. -/
theorem point_shortest_le (hm : 0 < m) (h : IsCanonical m e)
    (hwhole : ¬∃ n : Nat, (n : ℚ) = m * 2 ^ e) : (shortest m e).point ≤ 16 := by
  have he : e ≤ -1 := by
    by_contra hge
    refine hwhole ⟨m * 2 ^ e.toNat, ?_⟩
    rw [Nat.cast_mul, Nat.cast_pow, Nat.cast_ofNat, ← zpow_natCast,
      Int.toNat_of_nonneg (by omega)]
  obtain ⟨-, hhigh⟩ := between_subset _ _ _ (mem_cell_iff.mp (shortest_mem_cell hm h))
  rw [div_le_iff₀ (zpow_pos two_pos _)] at hhigh
  have hend : (roundingInterval m e).2 ≤ 2 ^ 55 := by
    have hlt : m < 2 ^ 53 := h.lt
    dsimp only [roundingInterval]
    omega
  by_contra hpoint
  have hlarge := (Decimal.ten_zpow_le_value_iff (coefficient_shortest_pos hm h)).mpr
    (not_le.mp hpoint)
  -- with a bit behind the point there are at most 52 in front of it
  have hsmall : (shortest m e).value ≤ 2 ^ 55 * 2 ^ (-3 : Int) := calc
    (shortest m e).value ≤ (roundingInterval m e).2 * 2 ^ (e - 2) := hhigh
    _ ≤ 2 ^ 55 * 2 ^ (-3 : Int) :=
      mul_le_mul (by exact_mod_cast hend) (zpow_le_zpow_right₀ one_le_two (by omega))
        (zpow_pos two_pos _).le (by norm_num)
  exact absurd (hlarge.trans hsmall) (by norm_num)

/-- The shortest decimal of a double reaches `10 ^ 21`, which is a double, just if the double
does. -/
theorem lt_point_shortest_iff (hm : 0 < m) (h : IsCanonical m e) :
    21 < (shortest m e).point ↔ 10 ^ 21 ≤ (m : ℚ) * 2 ^ e := by
  have hmem := shortest_mem_cell hm h
  have hone : (10 : ℚ) ^ (21 : Int) = (1 : Nat) * 10 ^ (21 : Int) := by rw [Nat.cast_one, one_mul]
  have hpower : (10 : ℚ) ^ 21 = 10 ^ (21 : Int) := (zpow_natCast 10 21).symm
  rw [← Decimal.ten_zpow_le_value_iff (coefficient_shortest_pos hm h), hpower]
  constructor
  · intro hle
    by_contra hlt
    -- the power of ten lies between the double and the decimal, so it is the double itself
    have hbetween := (ordConnected_cell m e).out (value_mem_cell hm e) hmem
      ⟨(not_le.mp hlt).le, hle⟩
    rw [hone] at hbetween
    have hread : ofDecimal false 1 21 = .finite false 7629394531250000 17 := by decide +kernel
    have hsame : ofDecimal false 1 21 = .finite false m e :=
      (ofDecimal_eq_finite_iff hm h).mpr hbetween
    obtain ⟨-, rfl, rfl⟩ := Double.finite.inj (hread.symm.trans hsame)
    exact hlt (by norm_num)
  · intro hle
    by_contra hlt
    -- the power of ten lies between the decimal and the double, so it is a coarser multiple
    have hbetween := (ordConnected_cell m e).out hmem (value_mem_cell hm e)
      ⟨(not_le.mp hlt).le, hle⟩
    rw [hone] at hbetween
    have hexponent : 21 ≤ (shortest m e).exponent :=
      not_lt.mp fun hlt ↦ (shortest_spec hm h).2 21 hlt 1 hbetween
    refine hlt ((Decimal.ten_zpow_le_value_iff (coefficient_shortest_pos hm h)).mpr ?_)
    have hlength : 0 < (Nat.toDigits 10 (shortest m e).coefficient).length :=
      List.length_pos_of_ne_nil (by simp)
    rw [Decimal.point]
    omega

/-- Whole numbers of up to 53 bits are their own shortest decimals. -/
theorem value_shortest_of_lt (h : IsCanonical m e) (hn : (n : ℚ) = m * 2 ^ e)
    (hlt : n < twoTo 53) : (shortest m e).value = n := by
  rcases Nat.eq_zero_or_pos m with rfl | hm
  · rw [hn, h.eq_of_zero, shortest_zero]
    simp [Decimal.value]
  -- the last bit counts one or less, so the cell has no other whole number
  have he : e ≤ 0 := by
    by_contra hpos
    have hfull : 2 ^ 52 ≤ m := h.full.resolve_right (by omega)
    have hlarge : (2 : ℚ) ^ 53 ≤ n := calc
      (2 : ℚ) ^ 53 = (2 : ℚ) ^ 52 * 2 ^ (1 : Int) := by norm_num
      _ ≤ (m : ℚ) * 2 ^ e :=
        mul_le_mul (by exact_mod_cast hfull) (zpow_le_zpow_right₀ one_le_two (by omega))
          (by norm_num) (by positivity)
      _ = n := hn.symm
    have hge : 2 ^ 53 ≤ n := by exact_mod_cast hlarge
    exact absurd hlt (not_lt.mpr hge)
  have hexponent := (exponent_shortest_nonneg_iff hm h).mpr ⟨n, hn⟩
  have hmem := shortest_mem_cell hm h
  rw [value_eq_natCast hexponent] at hmem ⊢
  rw [eq_of_natCast_mem_cell he hmem, hn]

end Whole

end MockApi.Double
