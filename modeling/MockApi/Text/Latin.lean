import MockApi.Text.Basic

/-!
# Latin-1 text

Headers are sent in Latin-1, one octet for each code point, with their names in lower case. Four
code points outside Latin-1 have their lower-case form inside.
-/

namespace MockApi.Text

/-- Whether a code point is in Latin-1. -/
def isLatin (c : Nat) : Bool := c < 0x100

/-- Whether a code point is an upper-case letter of Latin-1 with a lower-case form next to it. -/
def isLatinUpper (c : Nat) : Bool :=
  ('A'.toNat ≤ c && c ≤ 'Z'.toNat) || (0xC0 ≤ c && c ≤ 0xDE && c ≠ 0xD7)

/-- The code points outside Latin-1 with a lower-case form inside. -/
def latinLowerForms : List (Nat × Nat) :=
  [(0x178, 0xFF), (0x1E9E, 0xDF), (0x212A, 'k'.toNat), (0x212B, 0xE5)]

/-- The lower-case form of a code point, if that is in Latin-1. -/
def latinLower? (c : Nat) : Option Nat :=
  if isLatinUpper c then some (c + 32)
  else if isLatin c then some c
  else latinLowerForms.lookup c

/-- The text in lower case, if that is in Latin-1. -/
def toLatinLower? (t : Text) : Option Text := t.mapM latinLower?

/-- The text, if it is in Latin-1. -/
def toLatin? (t : Text) : Option Text := if t.all isLatin then some t else none

theorem isLatin_of_latinLower? {c d : Nat} (h : latinLower? c = some d) : isLatin d = true := by
  unfold latinLower? at h
  split at h
  · rename_i hu
    cases h
    simp [isLatinUpper] at hu
    simp [isLatin]
    omega
  · split at h
    · cases h
      assumption
    · simp only [latinLowerForms, List.lookup_cons, List.lookup_nil] at h
      repeat' split at h
      all_goals cases h
      all_goals decide

end MockApi.Text
