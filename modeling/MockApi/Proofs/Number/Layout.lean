import MockApi.Number.Layout
import MockApi.Proofs.Number.Numeral

/-!
# The code points of number texts

Every notation writes finite doubles in digits and four marks, and the others by name. So what holds
of digits, marks and names holds of all code points of a text. No text is empty.
-/

namespace MockApi

namespace DoubleNotation

/-! ## Digits, marks and names -/

/-- The marks between the digits of a double. -/
def marks : Text := "+-.e"

section CodePoints

variable {p : Nat → Prop}

theorem forall_mem_zeros (hdigit : ∀ c, Text.isAsciiDigit c = true → p c) (n : Nat) :
    ∀ c ∈ List.replicate n '0'.toNat, p c := by
  intro c hc
  rw [List.eq_of_mem_replicate hc]
  exact hdigit _ (by decide)

theorem forall_mem_positional {digits : Text} (hdigit : ∀ c, Text.isAsciiDigit c = true → p c)
    (hmark : ∀ c ∈ marks, p c) (h : ∀ c ∈ digits, p c) (point : Int) :
    ∀ c ∈ positional digits point, p c := by
  have hzero : p '0'.toNat := hdigit _ (by decide)
  have hpoint : p '.'.toNat := hmark _ (by decide)
  have hzeros := forall_mem_zeros hdigit
  unfold positional
  split
  · simp only [List.forall_mem_cons, List.forall_mem_append]
    exact ⟨hzero, hpoint, hzeros _, h⟩
  · split
    · simp only [List.forall_mem_append]
      exact ⟨⟨h, hzeros _⟩, List.forall_mem_cons.mpr ⟨hpoint, List.forall_mem_singleton.mpr hzero⟩⟩
    · simp only [List.forall_mem_cons, List.forall_mem_append]
      exact ⟨fun c hc ↦ h c (List.mem_of_mem_take hc), hpoint,
        fun c hc ↦ h c (List.mem_of_mem_drop hc)⟩

theorem forall_mem_scientific {digits : Text} (hdigit : ∀ c, Text.isAsciiDigit c = true → p c)
    (hmark : ∀ c ∈ marks, p c) (h : ∀ c ∈ digits, p c) (width : Nat) (exponent : Int) :
    ∀ c ∈ scientific width digits exponent, p c := by
  have hsign : p (if exponent < 0 then '-'.toNat else '+'.toNat) := by
    split <;> exact hmark _ (by decide)
  unfold scientific
  simp only [List.forall_mem_append, List.forall_mem_cons]
  refine ⟨?_, hmark _ (by decide), hsign, forall_mem_zeros hdigit _,
    fun c hc ↦ hdigit c (Text.isAsciiDigit_of_mem_ofNat hc)⟩
  split
  · exact List.forall_mem_nil _
  · exact h
  · obtain ⟨hfirst, hothers⟩ := List.forall_mem_cons.mp h
    exact List.forall_mem_cons.mpr
      ⟨hfirst, List.forall_mem_cons.mpr ⟨hmark _ (by decide), hothers⟩⟩

/-- **The code points of a double.** What holds of digits, marks and the names of a notation holds
of all of them. -/
theorem forall_mem_write {style : DoubleNotation} (hdigit : ∀ c, Text.isAsciiDigit c = true → p c)
    (hmark : ∀ c ∈ marks, p c) (hnan : ∀ c ∈ style.nanName, p c)
    (hinfinity : ∀ c ∈ style.infinityName, p c) (x : Double) : ∀ c ∈ style.write x, p c := by
  have hminus : p '-'.toNat := hmark _ (by decide)
  have hsign (negative : Bool) : ∀ c ∈ ((if negative then "-" else "" : String) : Text), p c := by
    cases negative with
    | false => exact List.forall_mem_nil _
    | true => exact List.forall_mem_singleton.mpr hminus
  have hdigits (n : Nat) : ∀ c ∈ Text.ofNat n, p c := fun c hc ↦
    hdigit c (Text.isAsciiDigit_of_mem_ofNat hc)
  unfold write
  split
  · intro c hc
    rcases Text.eq_or_isAsciiDigit_of_mem_ofInt hc with rfl | hc
    · exact hminus
    · exact hdigit c hc
  · split
    · exact hnan
    · exact List.forall_mem_append.mpr ⟨hsign _, hinfinity⟩
    · refine List.forall_mem_append.mpr ⟨hsign _, ?_⟩
      split
      · exact List.forall_mem_cons.mpr ⟨hdigit _ (by decide),
          List.forall_mem_cons.mpr ⟨hmark _ (by decide),
            List.forall_mem_singleton.mpr (hdigit _ (by decide))⟩⟩
      · unfold writeDecimal
        dsimp only
        split
        · exact forall_mem_positional hdigit hmark (hdigits _) _
        · exact forall_mem_scientific hdigit hmark (hdigits _) _ _

end CodePoints

/-! ## Texts are not empty -/

theorem positional_ne_nil (digits : Text) (point : Int) : positional digits point ≠ [] := by
  have hpoint : Text.ofString ".0" ≠ [] := by decide
  unfold positional
  split
  · exact List.cons_ne_nil _ _
  · split
    · exact List.append_ne_nil_of_right_ne_nil _ hpoint
    · exact List.append_ne_nil_of_right_ne_nil _ (List.cons_ne_nil _ _)

theorem write_literal_ne_nil (x : Double) : literal.write x ≠ [] := by
  have hnone : literal.integer? x = none := rfl
  unfold write
  rw [hnone]
  cases x with
  | nan => exact List.cons_ne_nil _ _
  | infinite negative => exact List.append_ne_nil_of_right_ne_nil _ (List.cons_ne_nil _ _)
  | finite negative m e =>
    refine List.append_ne_nil_of_right_ne_nil _ ?_
    split
    · exact List.cons_ne_nil _ _
    · unfold writeDecimal
      dsimp only
      split
      · exact positional_ne_nil _ _
      · exact List.append_ne_nil_of_right_ne_nil _ (List.cons_ne_nil _ _)

end DoubleNotation

theorem Number.ne_nil_of_write_literal {x : Number} {t : Text} (h : x.write .literal = .ok t) :
    t ≠ [] := by
  cases x with
  | int n =>
    replace h : integerText n = .ok t := h
    unfold integerText at h
    split at h
    · exact Except.ok.inj h ▸ Text.ofInt_ne_nil n
    · cases h
  | double x => exact Except.ok.inj h ▸ DoubleNotation.write_literal_ne_nil x

end MockApi
