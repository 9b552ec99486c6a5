import MockApi.Text.Basic

/-!
# Authorities

The authority of a URL names a host, which may be an IP address of version 6 between brackets. An
authority is refused if its brackets do not belong together, if they hold something else or are not
all of the host, or if it has code points that are easily taken for the separators of a URL.
-/

namespace MockApi.Authority

/-! ## Addresses -/

/-- One of the four numbers of an IPv4 address: at most 255, with no zero in front. -/
def isIPv4Part (t : Text) : Bool :=
  t ≠ [] && t.all Text.isAsciiDigit && t.length ≤ 3 && (t = "0" || t.head? ≠ some '0'.toNat)
    && t.foldl (fun n c ↦ 10 * n + (c - '0'.toNat)) 0 ≤ 255

/-- Four numbers with points between them. -/
def isIPv4 (t : Text) : Bool :=
  let parts := Text.splitOn '.'.toNat t
  parts.length = 4 && parts.all isIPv4Part

/-- One of the eight numbers of an IPv6 address. -/
def isHextet (t : Text) : Bool :=
  t ≠ [] && t.length ≤ 4 && t.all fun c ↦ (Text.hexDigit? c).isSome

/-- The parts of an IPv6 address, where an IPv4 address at the end counts as two. -/
def hextets? (t : Text) : Option (List Text) :=
  let parts := Text.splitOn ':'.toNat t
  let last := parts.getLastD []
  if parts.length < 3 then none
  else if last.contains '.'.toNat then
    if isIPv4 last then some (parts.dropLast ++ [("0" : Text), "0"]) else none
  else some parts

/-- Whether the parts make an IPv6 address: eight numbers, or fewer with one gap. The gap is an
empty part between two others; at an end of the address it takes a second empty part. -/
def isIPv6Parts (parts : List Text) : Bool :=
  let gaps := (List.range parts.length).filter fun i ↦
    0 < i && i + 1 < parts.length && (parts[i]?.getD []).isEmpty
  match gaps with
  | [] => parts.length = 8 && parts.all isHextet
  | [gap] =>
    let high := parts.take gap
    let low := parts.drop (gap + 1)
    let high := if high = [[]] then [] else high
    let low := if low = [[]] then [] else low
    high.length + low.length ≤ 7 && high.all isHextet && low.all isHextet
  | _ => false

/-- Whether a text is an IPv6 address, perhaps with a zone after a percent sign. -/
def isIPv6 (t : Text) : Bool :=
  !t.contains '/'.toNat &&
    (match Text.cut? '%'.toNat t with
      | none => (hextets? t).any isIPv6Parts
      | some (address, zone) =>
        zone ≠ [] && !zone.contains '%'.toNat && (hextets? address).any isIPv6Parts)

/-- Whether a text is an address of a future version: the letter v, a version and an address. -/
def isFutureAddress (t : Text) : Bool :=
  match Text.cut? '.'.toNat (t.drop 1) with
  | some (version, address) =>
    version ≠ [] && version.all (fun c ↦ (Text.hexDigit? c).isSome) && address ≠ []
  | none => false

/-- Whether a text is an address that may stand between brackets. -/
def isAddress (t : Text) : Bool :=
  if t.head? = some 'v'.toNat then isFutureAddress t else isIPv6 t

/-! ## Authorities -/

/-- The code points that look like one of the separators `/`, `?`, `#`, `@` and `:` or are written
with one. -/
def lookalikes : List Nat :=
  [0x2047, 0x2048, 0x2049, 0x2100, 0x2101, 0x2105, 0x2106, 0x2A74, 0xFE13, 0xFE16, 0xFE55, 0xFE56,
    0xFE5F, 0xFE6B, 0xFF03, 0xFF0F, 0xFF1A, 0xFF1F, 0xFF20]

/-- The host and the port of an authority, which follow the last at sign. -/
def hostAndPort (t : Text) : Text := Text.afterLast '@'.toNat t

/-- Whether a host with brackets is acceptable: nothing is in front of the brackets, an address is
between them, and a colon with the port or nothing follows. If the brackets are in front of the
last at sign only, the host has to be an address as well, with no brackets around it. -/
def isBracketedHostAndPort (t : Text) : Bool :=
  match Text.cut? '['.toNat t with
  | none => isAddress (Text.before ':'.toNat t)
  | some (front, rest) =>
    front = [] && isAddress (Text.before ']'.toNat rest)
      && (match Text.cut? ']'.toNat rest with
        | some (_, c :: _) => c = ':'.toNat
        | _ => true)

/-- Whether an authority is acceptable. -/
def isValid (t : Text) : Bool :=
  (match t.contains '['.toNat, t.contains ']'.toNat with
    | true, true => isBracketedHostAndPort (hostAndPort t)
    | false, false => true
    | _, _ => false)
  && !t.any lookalikes.contains

end MockApi.Authority
