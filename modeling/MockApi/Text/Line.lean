import MockApi.Text.Basic

/-!
# Lines of text

Files end their lines with a line feed, a carriage return, or both. Whoever reads a file sees line
feeds only.
-/

namespace MockApi.Text

/-- The line feed. -/
def lineFeed : Nat := 0x0A

/-- The carriage return. -/
def carriageReturn : Nat := 0x0D

/-- The text with a line feed at the end of every line. -/
def unifyLineEnds : Text → Text
  | [] => []
  | [c] => [if c = carriageReturn then lineFeed else c]
  | c :: d :: t =>
    if c = carriageReturn then
      if d = lineFeed then lineFeed :: unifyLineEnds t else lineFeed :: unifyLineEnds (d :: t)
    else c :: unifyLineEnds (d :: t)

/-- The lines of a text, without their ends. -/
def lines (t : Text) : List Text := splitOn lineFeed t

/-- The text without the line feed at its end, if it ends in one. -/
def dropFinalLineFeed (t : Text) : Text := if t.getLast? = some lineFeed then t.dropLast else t

theorem unifyLineEnds_eq_self {t : Text} (h : carriageReturn ∉ t) : unifyLineEnds t = t := by
  fun_induction unifyLineEnds t with
  | case1 => rfl
  | case2 c => simp_all [eq_comm]
  | case3 => simp at h
  | case4 => simp at h
  | case5 c d t hc ih => rw [ih fun m ↦ h (List.mem_cons_of_mem _ m)]

/-- No carriage return is left. -/
theorem carriageReturn_notMem_unifyLineEnds (t : Text) :
    carriageReturn ∉ unifyLineEnds t := by
  fun_induction unifyLineEnds t with
  | case1 => simp
  | case2 c =>
    by_cases h : c = carriageReturn
    · simp [h, carriageReturn, lineFeed]
    · simp [h, Ne.symm h]
  | case3 => simp_all [carriageReturn, lineFeed]
  | case4 => simp_all [carriageReturn, lineFeed]
  | case5 _ _ _ h ih => simp [ih, Ne.symm h]

end MockApi.Text
