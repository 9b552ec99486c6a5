import Mathlib.Tactic.SplitIfs
import MockApi.Text.Utf8

/-!
# Decoding what was encoded

The octets of a code point are read as that code point, whatever follows them: the first octet tells
how many continuations are owed, each of those fits, and the last one completes the code point. So a
text of scalar values is read back from its octets, and nothing in them is ill-formed.
-/

namespace MockApi.Text

/-- A scalar value of Unicode: a code point that is no surrogate. -/
def IsScalar (c : Nat) : Prop := c < 0x110000 ∧ isSurrogate c = false

instance (c : Nat) : Decidable (IsScalar c) := inferInstanceAs (Decidable (_ ∧ _))

/-- A text of scalar values. -/
def IsScalarText (t : Text) : Prop := ∀ c ∈ t, IsScalar c

instance (t : Text) : Decidable t.IsScalarText := inferInstanceAs (Decidable (∀ _ ∈ t, _))

namespace Utf8

variable {surrogates : Bool}

/-! ## Octet by octet -/

theorem parts_cons (surrogates : Bool) (state : State) (b : Nat) (rest : Octets) :
    parts surrogates state (b :: rest) =
      (step surrogates state b).1 ++ parts surrogates (step surrogates state b).2 rest := by
  cases state <;> rfl

/-- A first octet completes nothing yet. -/
theorem parts_lead {b : Nat} {state : State} (hascii : 0x80 ≤ b)
    (h : lead? surrogates b = some state) (rest : Octets) :
    parts surrogates .start (b :: rest) = parts surrogates state rest := by
  have hstep : step surrogates .start b = ([], state) := by
    rw [step, stepStart, if_neg (Nat.not_lt.mpr hascii), h]
  rw [parts_cons, hstep, List.nil_append]

/-- A continuation that is not the last one adds its bits. -/
theorem parts_owing {bits tails low high b : Nat} (htails : tails ≠ 0) (hlow : low ≤ b)
    (hhigh : b ≤ high) (rest : Octets) :
    parts surrogates (.owing bits (tails + 1) low high) (b :: rest) =
      parts surrogates (.owing (bits * 0x40 + (b - 0x80)) tails 0x80 0xBF) rest := by
  have hstep : step surrogates (.owing bits (tails + 1) low high) b =
      ([], .owing (bits * 0x40 + (b - 0x80)) tails 0x80 0xBF) := by
    rw [step, if_pos ⟨hlow, hhigh⟩]
    exact if_neg (by omega)
  rw [parts_cons, hstep, List.nil_append]

/-- The last continuation completes the code point. -/
theorem parts_owing_one {bits low high b : Nat} (hlow : low ≤ b) (hhigh : b ≤ high)
    (rest : Octets) :
    parts surrogates (.owing bits 1 low high) (b :: rest) =
      some (bits * 0x40 + (b - 0x80)) :: parts surrogates .start rest := by
  have hstep : step surrogates (.owing bits 1 low high) b =
      ([some (bits * 0x40 + (b - 0x80))], .start) := by
    rw [step, if_pos ⟨hlow, hhigh⟩]
    exact if_pos rfl
  rw [parts_cons, hstep, List.singleton_append]

/-! ## First octets -/

theorem lead?_two {k : Nat} (hlow : 2 ≤ k) (hhigh : k < 0x20) :
    lead? surrogates (0xC0 + k) = some (.owing k 1 0x80 0xBF) := by
  rw [lead?, if_pos (by omega), Nat.add_sub_cancel_left]

/-- Of three octets the second one is restricted where fewer octets would do or a surrogate would
come out. -/
theorem lead?_three {k : Nat} (h : k < 0x10) :
    lead? surrogates (0xE0 + k) = some (.owing k 2 (if k = 0 then 0xA0 else 0x80)
      (if k = 0xD ∧ surrogates = false then 0x9F else 0xBF)) := by
  rw [lead?, if_neg (by omega)]
  by_cases hzero : k = 0
  · subst hzero
    rfl
  · by_cases hsurrogate : k = 0xD
    · subst hsurrogate
      cases surrogates <;> rfl
    · rw [if_neg (by omega), if_neg (by omega), if_pos (by omega), Nat.add_sub_cancel_left,
        if_neg hzero, if_neg fun hand ↦ hsurrogate hand.1]

/-- Of four octets the second one is restricted where fewer octets would do or the code space
ends. -/
theorem lead?_four {k : Nat} (h : k ≤ 4) :
    lead? surrogates (0xF0 + k) = some (.owing k 3 (if k = 0 then 0x90 else 0x80)
      (if k = 4 then 0x8F else 0xBF)) := by
  rw [lead?, if_neg (by omega), if_neg (by omega), if_neg (by omega), if_neg (by omega)]
  by_cases hzero : k = 0
  · subst hzero
    rfl
  · by_cases hlast : k = 4
    · subst hlast
      rfl
    · rw [if_neg (by omega), if_pos (by omega), Nat.add_sub_cancel_left, if_neg hzero,
        if_neg hlast]

/-! ## Code points -/

/-- The octets of a code point are read as the code point, a surrogate on demand only. -/
theorem parts_encodeCodePoint_append {c : Nat} (h : c < 0x110000)
    (hsurrogate : isSurrogate c = true → surrogates = true) (rest : Octets) :
    parts surrogates .start (encodeCodePoint c ++ rest) =
      some c :: parts surrogates .start rest := by
  have hplain : surrogates = false → c < 0xD800 ∨ 0xDFFF < c := by
    rintro rfl
    have hnot : isSurrogate c = false := by simpa using hsurrogate
    simp only [isSurrogate, Bool.and_eq_false_iff, decide_eq_false_iff_not] at hnot
    omega
  unfold encodeCodePoint
  split_ifs with hone htwo hthree
  · rw [List.singleton_append, parts_cons, step, stepStart, if_pos hone, List.singleton_append]
  · have hbits : c / 0x40 * 0x40 + (0x80 + c % 0x40 - 0x80) = c := by omega
    simp only [List.cons_append, List.nil_append]
    rw [parts_lead (by omega) (lead?_two (by omega) (by omega)),
      parts_owing_one (by omega) (by omega), hbits]
  · have hlow : (if c / 0x1000 = 0 then 0xA0 else 0x80) ≤ 0x80 + c / 0x40 % 0x40 := by
      split_ifs <;> omega
    have hhigh : 0x80 + c / 0x40 % 0x40 ≤
        if c / 0x1000 = 0xD ∧ surrogates = false then 0x9F else 0xBF := by
      split_ifs with hd
      · have := hplain hd.2
        omega
      · omega
    have hbits : (c / 0x1000 * 0x40 + (0x80 + c / 0x40 % 0x40 - 0x80)) * 0x40
        + (0x80 + c % 0x40 - 0x80) = c := by omega
    simp only [List.cons_append, List.nil_append]
    rw [parts_lead (by omega) (lead?_three (by omega)), parts_owing Nat.one_ne_zero hlow hhigh,
      parts_owing_one (by omega) (by omega), hbits]
  · have hlow : (if c / 0x40000 = 0 then 0x90 else 0x80) ≤ 0x80 + c / 0x1000 % 0x40 := by
      split_ifs <;> omega
    have hhigh : 0x80 + c / 0x1000 % 0x40 ≤ if c / 0x40000 = 4 then 0x8F else 0xBF := by
      split_ifs <;> omega
    have hbits : ((c / 0x40000 * 0x40 + (0x80 + c / 0x1000 % 0x40 - 0x80)) * 0x40
        + (0x80 + c / 0x40 % 0x40 - 0x80)) * 0x40 + (0x80 + c % 0x40 - 0x80) = c := by omega
    simp only [List.cons_append, List.nil_append]
    rw [parts_lead (by omega) (lead?_four (by omega)),
      parts_owing (Nat.succ_ne_zero 1) hlow hhigh,
      parts_owing Nat.one_ne_zero (by omega) (by omega), parts_owing_one (by omega) (by omega),
      hbits]

/-! ## Texts -/

/-- The octets of a text without what its encoding refuses are read as its code points. -/
theorem parts_flatMap_encodeCodePoint {t : Text} (h : t.IsScalarText) :
    parts surrogates .start (t.flatMap encodeCodePoint) = t.map some := by
  induction t with
  | nil => rfl
  | cons c t ih =>
    obtain ⟨hc, ht⟩ := List.forall_mem_cons.mp h
    have hsurrogate : isSurrogate c = true → surrogates = true := fun hs ↦ by
      rw [hc.2] at hs
      cases hs
    rw [List.flatMap_cons, parts_encodeCodePoint_append hc.1 hsurrogate, ih ht, List.map_cons]

/-- Well-formed octets are decoded strictly as well. -/
theorem decode?_flatMap_encodeCodePoint {t : Text} (h : t.IsScalarText) :
    decode? surrogates (t.flatMap encodeCodePoint) = some t := by
  rw [decode?, parts_flatMap_encodeCodePoint h]
  induction t with
  | nil => rfl
  | cons c t ih =>
    rw [List.map_cons, List.mapM_cons, ih fun d hd ↦ h d (List.mem_cons_of_mem c hd)]
    rfl

/-- **Encoded text is decoded as the text it was.** -/
theorem decodeLenient_flatMap_encodeCodePoint {t : Text} (h : t.IsScalarText) :
    decodeLenient (t.flatMap encodeCodePoint) = t := by
  rw [decodeLenient, parts_flatMap_encodeCodePoint h, List.map_map]
  exact List.map_id t

/-- Octets are below 0x100. -/
theorem lt_of_mem_encodeCodePoint {c b : Nat} (h : c < 0x110000) (hb : b ∈ encodeCodePoint c) :
    b < 0x100 := by
  unfold encodeCodePoint at hb
  split_ifs at hb <;>
    simp only [List.mem_cons, List.not_mem_nil, or_false] at hb <;>
    omega

end Utf8

end MockApi.Text
