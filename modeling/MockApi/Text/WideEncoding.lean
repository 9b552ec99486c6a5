import MockApi.Text.Utf8

/-!
# Texts of unknown encoding

A JSON document may come in UTF-8, UTF-16 or UTF-32. A byte order mark names the encoding and is no
part of the text; without one, the zero octets among the first four give it away, since a document
starts with ASCII. Surrogates are let through in every encoding.
-/

namespace MockApi.Text

/-- The order of the octets of a number: most or least significant first. -/
inductive Endianness
  | big
  | little
deriving DecidableEq

/-- An encoding of texts by octets. -/
inductive Encoding
  | utf8
  | utf16 (endianness : Endianness)
  | utf32 (endianness : Endianness)
deriving DecidableEq

namespace Encoding

open Utf8 (Octets)

/-- The encoding named by a byte order mark, with the octets after the mark. -/
def ofMark? : Octets → Option (Encoding × Octets)
  | 0x00 :: 0x00 :: 0xFE :: 0xFF :: rest => some (.utf32 .big, rest)
  | 0xFF :: 0xFE :: 0x00 :: 0x00 :: rest => some (.utf32 .little, rest)
  | 0xFE :: 0xFF :: rest => some (.utf16 .big, rest)
  | 0xFF :: 0xFE :: rest => some (.utf16 .little, rest)
  | 0xEF :: 0xBB :: 0xBF :: rest => some (.utf8, rest)
  | _ => none

/-- The encoding given away by the zeros among the first octets. -/
def ofZeros : Octets → Encoding
  | a :: b :: c :: d :: _ =>
    if a = 0 then if b = 0 then .utf32 .big else .utf16 .big
    else if b = 0 then if c = 0 ∧ d = 0 then .utf32 .little else .utf16 .little
    else .utf8
  | [a, b] => if a = 0 then .utf16 .big else if b = 0 then .utf16 .little else .utf8
  | _ => .utf8

/-- The number written by octets in the given order. -/
def number (endianness : Endianness) (octets : Octets) : Nat :=
  (match endianness with
    | .big => octets
    | .little => octets.reverse).foldl (fun n b ↦ 0x100 * n + b) 0

/-- The 16-bit units of octets, if the octets come in pairs. -/
def units16? (endianness : Endianness) : Octets → Option (List Nat)
  | [] => some []
  | [_] => none
  | a :: b :: rest => (units16? endianness rest).map (number endianness [a, b] :: ·)

/-- Joins each high surrogate with a low one right after it. -/
def joinSurrogates : Text → Text
  | [] => []
  | [c] => [c]
  | c :: d :: rest =>
    if 0xD800 ≤ c ∧ c ≤ 0xDBFF ∧ 0xDC00 ≤ d ∧ d ≤ 0xDFFF then
      (0x10000 + (c - 0xD800) * 0x400 + (d - 0xDC00)) :: joinSurrogates rest
    else c :: joinSurrogates (d :: rest)

/-- The 32-bit units of octets, if the octets come in fours and the units are code points. -/
def units32? (endianness : Endianness) : Octets → Option (List Nat)
  | [] => some []
  | a :: b :: c :: d :: rest =>
    let unit := number endianness [a, b, c, d]
    if unit < 0x110000 then (units32? endianness rest).map (unit :: ·) else none
  | _ => none

/-- The text of octets in this encoding. -/
def decode? : Encoding → Octets → Option Text
  | .utf8, octets => Utf8.decode? true octets
  | .utf16 endianness, octets => (units16? endianness octets).map joinSurrogates
  | .utf32 endianness, octets => units32? endianness octets

end Encoding

/-- The text of the octets of a document in whatever encoding they show. -/
def ofDocument? (octets : Utf8.Octets) : Option Text :=
  match Encoding.ofMark? octets with
  | some (encoding, rest) => encoding.decode? rest
  | none => (Encoding.ofZeros octets).decode? octets

end MockApi.Text
