import MockApi.Text.Utf8

/-!
# Percent-encoded text

In URLs, a percent sign and two hexadecimal digits stand for an octet of UTF-8. Decoding takes each
run of ASCII code points by itself, since only octets can be next to each other in a code point;
percent signs that start no escape stand for themselves, and so does everything beyond ASCII.
-/

namespace MockApi.Percent

/-- The octets of ASCII text with escapes. -/
def octets : Text → Text.Utf8.Octets
  | [] => []
  | [c] => [c]
  | [c, d] => [c, d]
  | c :: a :: b :: rest =>
    match (if c = '%'.toNat then Text.hexValue? [a, b] else none) with
    | some octet => octet :: octets rest
    | none => c :: octets (a :: b :: rest)

/-- The text in runs of ASCII and of other code points. -/
def runs (t : Text) : List Text := t.splitBy fun a b ↦ (a < 0x80) == (b < 0x80)

/-- The text of a run. -/
def decodeRun (run : Text) : Text :=
  if run.all (· < 0x80) then Text.Utf8.decodeLenient (octets run) else run

/-- The text with its escapes decoded. -/
def decode (t : Text) : Text := (runs t).flatMap decodeRun

end MockApi.Percent
