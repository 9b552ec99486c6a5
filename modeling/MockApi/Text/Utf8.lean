import MockApi.Text.Basic

/-!
# UTF-8

Texts travel as octets. Encoding writes each code point in one to four octets and is refused for a
text that holds a surrogate. Decoding reads octets one at a time and knows, between octets, how many
continuations are owed and which octets may come next; where the sequence breaks, the octets read
since the last complete code point are one ill-formed part. The strict reading refuses a sequence
with ill-formed parts, the lenient one puts U+FFFD for each.

Octets are natural numbers; none above 0xFF starts or continues a code point.
-/

namespace MockApi.Text.Utf8

/-- A finite sequence of octets. -/
abbrev Octets := List Nat

/-! ## Encoding -/

/-- The octets of a code point. -/
def encodeCodePoint (c : Nat) : Octets :=
  if c < 0x80 then [c]
  else if c < 0x800 then [0xC0 + c / 0x40, 0x80 + c % 0x40]
  else if c < 0x10000 then [0xE0 + c / 0x1000, 0x80 + c / 0x40 % 0x40, 0x80 + c % 0x40]
  else [0xF0 + c / 0x40000, 0x80 + c / 0x1000 % 0x40, 0x80 + c / 0x40 % 0x40, 0x80 + c % 0x40]

/-- The octets of a text without surrogates. -/
def encode? (t : Text) : Option Octets :=
  if t.any isSurrogate then none else some (t.flatMap encodeCodePoint)

/-! ## Decoding -/

/-- Where a decoder stands between two octets. -/
inductive State
  /-- Between code points. -/
  | start
  /-- Inside a code point: the bits read so far, the number of continuations owed, and the range of
  octets that may come next. -/
  | owing (bits tails low high : Nat)

/-- The state after the first octet of a code point that takes several, or `none` for an octet that
starts no such code point. Encoded surrogates are let through on demand. -/
def lead? (surrogates : Bool) (b : Nat) : Option State :=
  if 0xC2 ≤ b ∧ b ≤ 0xDF then some (.owing (b - 0xC0) 1 0x80 0xBF)
  else if b = 0xE0 then some (.owing 0 2 0xA0 0xBF)
  else if b = 0xED then some (.owing 0xD 2 0x80 (if surrogates then 0xBF else 0x9F))
  else if 0xE1 ≤ b ∧ b ≤ 0xEF then some (.owing (b - 0xE0) 2 0x80 0xBF)
  else if b = 0xF0 then some (.owing 0 3 0x90 0xBF)
  else if 0xF1 ≤ b ∧ b ≤ 0xF3 then some (.owing (b - 0xF0) 3 0x80 0xBF)
  else if b = 0xF4 then some (.owing 4 3 0x80 0x8F)
  else none

/-- What one octet completes, from between code points, and the state after it. A completed part is
a code point or, as `none`, ill-formed. -/
def stepStart (surrogates : Bool) (b : Nat) : List (Option Nat) × State :=
  if b < 0x80 then ([some b], .start)
  else match lead? surrogates b with
    | some state => ([], state)
    | none => ([none], .start)

/-- What one octet completes and the state after it. -/
def step (surrogates : Bool) : State → Nat → List (Option Nat) × State
  | .start, b => stepStart surrogates b
  | .owing bits tails low high, b =>
    if low ≤ b ∧ b ≤ high then
      let bits := bits * 0x40 + (b - 0x80)
      if tails = 1 then ([some bits], .start) else ([], .owing bits (tails - 1) 0x80 0xBF)
    else
      let (parts, state) := stepStart surrogates b
      (none :: parts, state)

/-- The parts of the octets from a state on: code points and ill-formed parts. -/
def parts (surrogates : Bool) : State → Octets → List (Option Nat)
  | .start, [] => []
  | .owing .., [] => [none]
  | state, b :: rest =>
    let (completed, next) := step surrogates state b
    completed ++ parts surrogates next rest

/-- The text of well-formed octets; encoded surrogates are let through on demand. -/
def decode? (surrogates : Bool) (octets : Octets) : Option Text :=
  (parts surrogates .start octets).mapM id

/-- The text of any octets, with U+FFFD for each ill-formed part. -/
def decodeLenient (octets : Octets) : Text :=
  (parts false .start octets).map (·.getD 0xFFFD)

theorem encodeCodePoint_ascii {c : Nat} (h : c < 0x80) : encodeCodePoint c = [c] := by
  simp [encodeCodePoint, h]

theorem decodeLenient_ascii {c : Nat} (h : c < 0x80) (octets : Octets) :
    decodeLenient (c :: octets) = c :: decodeLenient octets := by
  simp [decodeLenient, parts, step, stepStart, h]

end MockApi.Text.Utf8
