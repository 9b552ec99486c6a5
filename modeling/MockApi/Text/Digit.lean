import MockApi.Text.Basic

/-!
# Decimal digits

Numerals may be written with the decimal digits of any script. Each script has its ten digits in a
row, so the table holds the zeros only. A second, wider class also counts superscripts, circled
numbers and the like as digits; they have no place in a numeral, but they look like an index until
somebody tries to read them.
-/

namespace MockApi.Text

/-- The zero of every script that writes decimal numerals. -/
def digitZeros : List Nat :=
  [0x30, 0x660, 0x6F0, 0x7C0, 0x966, 0x9E6, 0xA66, 0xAE6, 0xB66, 0xBE6, 0xC66, 0xCE6, 0xD66,
    0xDE6, 0xE50, 0xED0, 0xF20, 0x1040, 0x1090, 0x17E0, 0x1810, 0x1946, 0x19D0, 0x1A80, 0x1A90,
    0x1B50, 0x1BB0, 0x1C40, 0x1C50, 0xA620, 0xA8D0, 0xA900, 0xA9D0, 0xA9F0, 0xAA50, 0xABF0,
    0xFF10, 0x104A0, 0x10D30, 0x11066, 0x110F0, 0x11136, 0x111D0, 0x112F0, 0x11450, 0x114D0,
    0x11650, 0x116C0, 0x11730, 0x118E0, 0x11950, 0x11C50, 0x11D50, 0x11DA0, 0x16A60, 0x16AC0,
    0x16B50, 0x1D7CE, 0x1D7D8, 0x1D7E2, 0x1D7EC, 0x1D7F6, 0x1E140, 0x1E2F0, 0x1E950, 0x1FBF0]

/-- The value of a decimal digit of any script. -/
def digitValue? (c : Nat) : Option Nat :=
  (digitZeros.find? fun z ↦ z ≤ c && c < z + 10).map (c - ·)

/-- Whether a code point is a decimal digit of some script. -/
def isDigit (c : Nat) : Bool := (digitValue? c).isSome

/-- The ranges of digits that do not write decimal numerals. -/
def otherDigitRanges : List (Nat × Nat) :=
  [(0xB2, 0xB3), (0xB9, 0xB9), (0x1369, 0x1371), (0x19DA, 0x19DA), (0x2070, 0x2070),
    (0x2074, 0x2079), (0x2080, 0x2089), (0x2460, 0x2468), (0x2474, 0x247C), (0x2488, 0x2490),
    (0x24EA, 0x24EA), (0x24F5, 0x24FD), (0x24FF, 0x24FF), (0x2776, 0x277E), (0x2780, 0x2788),
    (0x278A, 0x2792), (0x10A40, 0x10A43), (0x10E60, 0x10E68), (0x11052, 0x1105A),
    (0x1F100, 0x1F10A)]

/-- Whether a code point looks like a digit, superscripts and enclosed numbers included. -/
def isDigitLike (c : Nat) : Bool :=
  isDigit c || otherDigitRanges.any fun (low, high) ↦ low ≤ c && c ≤ high

/-- The number written by digits given by their values, most significant first. -/
def ofDigitValues (digits : List Nat) : Nat := digits.foldl (fun n d ↦ 10 * n + d) 0

/-- The number written by decimal digits of any scripts; other code points count as zero. -/
def digitsValue (t : Text) : Nat := ofDigitValues (t.map fun c ↦ (digitValue? c).getD 0)

/-- A natural number in ASCII decimal digits. -/
def ofNat (n : Nat) : Text := (Nat.toDigits 10 n).map Char.toNat

/-- An integer in ASCII decimal digits, with a minus sign in front if it is negative. -/
def ofInt (n : Int) : Text :=
  if n < 0 then '-'.toNat :: ofNat n.natAbs else ofNat n.natAbs

theorem isDigit_of_isAsciiDigit {c : Nat} (h : isAsciiDigit c = true) :
    isDigit c = true := by
  have hc : 0x30 ≤ c ∧ c ≤ 0x39 := by simpa [isAsciiDigit] using h
  have hz : (0x30 : Nat) ∈ digitZeros := List.mem_of_head? rfl
  unfold isDigit digitValue?
  rw [Option.isSome_map, List.find?_isSome]
  exact ⟨0x30, hz, by simp only [Bool.and_eq_true, decide_eq_true_eq]; omega⟩

end MockApi.Text
